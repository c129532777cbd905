import AgentRuntime.AudioMaintenance
import AgentRuntime.Lib.Batches

/-!
# The batches of the maintenance

A pass of `run_maintenance` looks at the oldest orphans up to the limit.
What it deletes leaves the orphans, what it keeps stays where it is
(`orphanQueue_runMaintenance`), so passes at one moment work off a queue in
batches. An orphan that the cascade would delete is therefore reached
exactly if fewer orphans that it keeps are older than the limit allows
(`orphan_cleaned_iff`); with as many, every batch is full of them.
-/

namespace AgentRuntime

open Keyed MemoirAudioJobsService

namespace MemoirAudioMaintenance

/-- The orphans, the oldest first. -/
def orphanQueue (db : AudioDb) : List MemoirAudioJob :=
  (db.jobs.rows.filter fun job =>
      decide (job.state ∈ orphanStates ∧ job.objectKey ≠ none)).insertionSort
    (fun a b => a.updatedAt ≤ b.updatedAt)

/-- Passes of `run_maintenance`, all at one moment. -/
def maintained (m : Maintenance) (moment : Time) : Nat → AudioDb → AudioDb
  | 0, db => db
  | k + 1, db => (runMaintenance m moment (maintained m moment k db)).2

/-- The cascade ends in a deletion. -/
def deletable (m : Maintenance) (moment : Time) (job : MemoirAudioJob) : Bool :=
  decide (verdict m moment job = .deleteCandidate)

/-- How many of the orphans in front of the job a pass keeps. -/
def keptBefore (m : Maintenance) (moment : Time) (db : AudioDb) (job : MemoirAudioJob) : Nat :=
  Batches.stuck (deletable m moment)
    (Batches.ahead MemoirAudioJob.jobId job.jobId (orphanQueue (reaped m moment db)))

/-! ## What a pass writes -/

/-- The row of an object that is gone. -/
def cleaned (moment : Time) (job : MemoirAudioJob) : MemoirAudioJob :=
  { job with state := .cleaned, updatedAt := moment }

/-- What a pass that deletes the objects of `ids` makes of a row. -/
def cleanOf (moment : Time) (ids : List String) (job : MemoirAudioJob) : MemoirAudioJob :=
  if job.jobId ∈ ids then cleaned moment job else job

theorem jobId_cleanOf (moment : Time) (ids : List String) (job : MemoirAudioJob) :
    (cleanOf moment ids job).jobId = job.jobId := by
  unfold cleanOf
  split <;> rfl

theorem cleanOf_cons {moment : Time} {id : String} {ids : List String} (hnew : id ∉ ids)
    (job : MemoirAudioJob) :
    cleanOf moment ids (cleanOf moment [id] job) = cleanOf moment (id :: ids) job := by
  by_cases hid : job.jobId = id
  · have hother : job.jobId ∉ ids := fun hmem => hnew (hid ▸ hmem)
    simp [cleanOf, cleaned, hid, hnew]
  · simp [cleanOf, hid]

/-- The rows of the orphans that are deleted become cleaned. -/
theorem maintainCandidates_rows {m : Maintenance} {moment : Time} (hexecute : m.execute = true)
    (hdeleter : ∀ job, m.ossDeleter job ≠ .raised) :
    ∀ (jobs : List MemoirAudioJob) (report : MaintenanceReport) (calls : List DeleteCall)
      (db : AudioDb), (jobs.map MemoirAudioJob.jobId).Nodup →
      (∀ job ∈ jobs, db.jobs.find? job.jobId = some job ∧ job.state ∈ orphanStates) →
      (maintainCandidates m moment report calls jobs db).2.jobs.rows
        = db.jobs.rows.map
          (cleanOf moment ((jobs.filter (deletable m moment)).map MemoirAudioJob.jobId))
  | [], _, _, db, _, _ => by
    have hid : cleanOf moment [] = id := by
      funext job
      exact if_neg List.not_mem_nil
    show db.jobs.rows = db.jobs.rows.map (cleanOf moment [])
    rw [hid, List.map_id]
  | job :: jobs, report, calls, db, hnodup, hjobs => by
    obtain ⟨hnew, hnodup⟩ := List.nodup_cons.mp hnodup
    have hrest : ∀ j ∈ jobs, db.jobs.find? j.jobId = some j ∧ j.state ∈ orphanStates :=
      fun j hj => hjobs j (List.mem_cons_of_mem _ hj)
    unfold maintainCandidates
    dsimp only
    by_cases hverdict : verdict m moment job = .deleteCandidate
    · have hcall : ¬ (verdict m moment job ≠ .deleteCandidate ∨ m.execute = false) := by
        rw [hexecute]
        simp [hverdict]
      have hserved : (job :: jobs).filter (deletable m moment)
          = job :: jobs.filter (deletable m moment) :=
        List.filter_cons_of_pos (decide_eq_true hverdict)
      rw [if_neg hcall, if_neg (hdeleter job), hserved, List.map_cons]
      obtain ⟨hfind, horphan⟩ := hjobs job List.mem_cons_self
      have hclean : markCleaned job.jobId moment db
          = (.ok (cleaned moment job), db.putJob (cleaned moment job)) := by
        unfold markCleaned
        rw [hfind]
        exact if_pos horphan
      show (AudioM.bind _ _ db).2.jobs.rows = _
      unfold AudioM.bind
      rw [hclean]
      dsimp only
      rw [maintainCandidates_rows hexecute hdeleter jobs _ _ _ hnodup]
      · -- the row that is written, and then the others
        show (db.jobs.rows.map _).map _ = _
        rw [List.map_map]
        refine List.map_congr_left fun row hrow => ?_
        have hnew' : job.jobId ∉ (jobs.filter (deletable m moment)).map MemoirAudioJob.jobId :=
          fun hmem => hnew ((List.filter_sublist.map _).subset hmem)
        rw [← cleanOf_cons hnew']
        show cleanOf moment _ (if row.jobId = job.jobId then cleaned moment job else row) = _
        refine congrArg (cleanOf moment _) ?_
        by_cases hkey : row.jobId = job.jobId
        · have hsame : row = job := by
            have hfind' := Table.find?_of_mem hrow
            rw [hkey, hfind] at hfind'
            injection hfind' with hsame
            exact hsame.symm
          subst hsame
          rw [if_pos rfl]
          exact (if_pos List.mem_cons_self).symm
        · rw [if_neg hkey]
          exact (if_neg (by simpa using hkey)).symm
      · intro j hj
        have hother : j.jobId ≠ job.jobId := fun he => hnew (List.mem_map.mpr ⟨j, hj, he⟩)
        refine ⟨?_, (hrest j hj).2⟩
        rw [← (hrest j hj).1]
        exact Table.find?_put_ne hother
    · rw [if_pos (Or.inl hverdict), List.filter_cons_of_neg (by simpa [deletable] using hverdict)]
      exact maintainCandidates_rows hexecute hdeleter jobs _ _ _ hnodup hrest

/-- What is kept of a row that no pass ends: it is found as it was. -/
theorem reaped_find? {m : Maintenance} {moment : Time} {db : AudioDb} {id : String}
    {job : MemoirAudioJob} (hfind : db.jobs.find? id = some job)
    (hstate : job.state ∉ activeStates) : (reaped m moment db).jobs.find? id = some job := by
  have hkeyed : ∀ cutoff, ¬ AbandonedKeyed cutoff job := fun _ h => hstate h.1
  have hkeyless : ∀ cutoff, ¬ AbandonedKeyless cutoff job := by
    intro cutoff h
    apply hstate
    rw [h.1]
    decide
  unfold reaped
  split
  · unfold failAbandonedKeylessDefaultJobs failAbandonedKeyedJobs
    dsimp only
    rw [Table.find?_mapRows, Table.find?_mapRows, hfind, Option.map_some, Option.map_some,
      if_neg (hkeyed _), if_neg (hkeyless _)]
  · exact hfind

/-- No lease is left that a pass at the moment would end. -/
def NoneAbandoned (cutoff : Int) (db : AudioDb) : Prop :=
  ∀ job ∈ db.jobs.rows, ¬ AbandonedKeyed cutoff job ∧ ¬ AbandonedKeyless cutoff job

theorem not_active_of_orphan {state : AudioState} (h : state ∈ orphanStates) :
    state ∉ activeStates := by
  revert h
  cases state <;> decide

theorem noneAbandoned_of_state {cutoff : Int} {job : MemoirAudioJob}
    (hstate : job.state ∉ activeStates) :
    ¬ AbandonedKeyed cutoff job ∧ ¬ AbandonedKeyless cutoff job := by
  refine ⟨fun h => hstate h.1, fun h => hstate ?_⟩
  rw [h.1]
  decide

theorem noneAbandoned_reaped {m : Maintenance} (hexecute : m.execute = true) (moment : Time)
    (db : AudioDb) : NoneAbandoned (retentionEdge m moment) (reaped m moment db) := by
  intro job hjob
  unfold reaped at hjob
  rw [if_pos hexecute] at hjob
  obtain ⟨row', hrow', rfl⟩ := List.mem_map.mp hjob
  obtain ⟨row, -, rfl⟩ := List.mem_map.mp hrow'
  by_cases hkeyed : AbandonedKeyed (retentionEdge m moment) row
  · -- what was ended is not active any more
    have hfailed : (abandon row).state ∉ activeStates := by
      show AudioState.failed ∉ activeStates
      decide
    rw [if_pos hkeyed, if_neg (noneAbandoned_of_state hfailed).2]
    exact noneAbandoned_of_state hfailed
  · rw [if_neg hkeyed]
    by_cases hkeyless : AbandonedKeyless (retentionEdge m moment) row
    · rw [if_pos hkeyless]
      refine noneAbandoned_of_state ?_
      show AudioState.failed ∉ activeStates
      decide
    · rw [if_neg hkeyless]
      exact ⟨hkeyed, hkeyless⟩

theorem reaped_rows_of_none {m : Maintenance} {moment : Time} {db : AudioDb}
    (h : NoneAbandoned (retentionEdge m moment) db) :
    (reaped m moment db).jobs.rows = db.jobs.rows := by
  unfold reaped
  split
  · show (db.jobs.rows.map _).map _ = _
    rw [List.map_map]
    refine Eq.trans (List.map_congr_left fun job hjob => ?_) (List.map_id _)
    obtain ⟨hkeyed, hkeyless⟩ := h job hjob
    show (if AbandonedKeyless _ (if AbandonedKeyed _ job then _ else job) then _ else _) = job
    rw [if_neg hkeyed, if_neg hkeyless]
  · rfl

/-! ## The queue -/

theorem orphanQueue_congr {db db' : AudioDb} (h : db'.jobs.rows = db.jobs.rows) :
    orphanQueue db' = orphanQueue db := by
  unfold orphanQueue
  rw [h]

theorem mem_orphanQueue {db : AudioDb} {job : MemoirAudioJob} :
    job ∈ orphanQueue db ↔ db.jobs.find? job.jobId = some job ∧ job.state ∈ orphanStates ∧
      job.objectKey ≠ none := by
  unfold orphanQueue
  rw [List.mem_insertionSort, List.mem_filter, decide_eq_true_iff]
  refine and_congr_left fun _ => ?_
  exact ⟨Table.find?_of_mem, Table.mem_of_find?⟩

theorem nodup_orphanQueue (db : AudioDb) :
    ((orphanQueue db).map MemoirAudioJob.jobId).Nodup := by
  refine ((List.perm_insertionSort _ _).map _).nodup_iff.mpr ?_
  exact db.jobs.nodup.sublist (List.filter_sublist.map _)

/-- A row that is cleaned is no orphan any more, and the others are as they
were. -/
theorem orphanQueue_clean {db db' : AudioDb} {moment : Time} {ids : List String}
    (h : db'.jobs.rows = db.jobs.rows.map (cleanOf moment ids)) :
    orphanQueue db' = (orphanQueue db).filter fun job => decide (job.jobId ∉ ids) := by
  unfold orphanQueue
  rw [Batches.filter_insertionSort, h, List.filter_filter]
  refine congrArg _ ?_
  induction db.jobs.rows with
  | nil => rfl
  | cons job rows ih =>
    rw [List.map_cons]
    by_cases hmem : job.jobId ∈ ids
    · have hrow : cleanOf moment ids job = cleaned moment job := if_pos hmem
      rw [hrow, List.filter_cons_of_neg (by simp [cleaned, orphanStates]),
        List.filter_cons_of_neg (by simp [hmem])]
      exact ih
    · have hrow : cleanOf moment ids job = job := if_neg hmem
      rw [hrow]
      by_cases horphan : job.state ∈ orphanStates ∧ job.objectKey ≠ none
      · rw [List.filter_cons_of_pos (by simpa using horphan),
          List.filter_cons_of_pos (by simpa [hmem] using horphan), ih]
      · rw [List.filter_cons_of_neg (by simpa using horphan),
          List.filter_cons_of_neg (by simpa [hmem] using horphan)]
        exact ih

/-- The candidates are the front of the queue. -/
theorem listOrphanCandidates_eq (limit : Nat) (db : AudioDb) :
    listOrphanCandidates limit db = (orphanQueue db).take limit := rfl

/-- The ids of what a pass deletes. -/
def cleanedIds (m : Maintenance) (moment : Time) (db : AudioDb) : List String :=
  (((orphanQueue (reaped m moment db)).take m.limit).filter (deletable m moment)).map
    MemoirAudioJob.jobId

section

variable {m : Maintenance} {moment : Time} (hexecute : m.execute = true)
  (hdeleter : ∀ job, m.ossDeleter job ≠ .raised)
include hexecute hdeleter

theorem runMaintenance_rows (db : AudioDb) :
    (runMaintenance m moment db).2.jobs.rows
      = (reaped m moment db).jobs.rows.map (cleanOf moment (cleanedIds m moment db)) :=
  maintainCandidates_rows hexecute hdeleter _ _ _ _ (nodup_listOrphanCandidates m.limit _)
    fun _ hjob => ⟨(mem_listOrphanCandidates hjob).1, (mem_listOrphanCandidates hjob).2.1⟩

theorem runMaintenance_find? (db : AudioDb) (id : String) :
    (runMaintenance m moment db).2.jobs.find? id
      = ((reaped m moment db).jobs.find? id).map (cleanOf moment (cleanedIds m moment db)) := by
  unfold Table.find?
  rw [runMaintenance_rows hexecute hdeleter, List.find?_map]
  simp only [Function.comp_def, jobId_cleanOf]

/-- No pass leaves a lease that the next one would end. -/
theorem runMaintenance_noneAbandoned (db : AudioDb) :
    NoneAbandoned (retentionEdge m moment) (runMaintenance m moment db).2 := by
  intro job hjob
  rw [runMaintenance_rows hexecute hdeleter] at hjob
  obtain ⟨row, hrow, rfl⟩ := List.mem_map.mp hjob
  unfold cleanOf
  split
  · refine noneAbandoned_of_state ?_
    show AudioState.cleaned ∉ activeStates
    decide
  · exact noneAbandoned_reaped hexecute moment db row hrow

/-- A pass works off the queue. -/
theorem orphanQueue_runMaintenance (db : AudioDb) :
    orphanQueue (reaped m moment (runMaintenance m moment db).2)
      = Batches.pass (deletable m moment) m.limit (orphanQueue (reaped m moment db)) := by
  rw [orphanQueue_congr (reaped_rows_of_none
    (runMaintenance_noneAbandoned hexecute hdeleter db)),
    Batches.pass_eq_filter (nodup_orphanQueue _)]
  exact orphanQueue_clean (runMaintenance_rows hexecute hdeleter db)

theorem orphanQueue_maintained (db : AudioDb) (k : Nat) :
    orphanQueue (reaped m moment (maintained m moment k db))
      = Batches.passes (deletable m moment) m.limit k (orphanQueue (reaped m moment db)) := by
  induction k with
  | zero => rfl
  | succ k ih =>
    rw [Batches.passes_succ, ← ih]
    exact orphanQueue_runMaintenance hexecute hdeleter (maintained m moment k db)

/-- Between the passes the row of an orphan is as it was, or cleaned. -/
theorem maintained_row {db : AudioDb} {job : MemoirAudioJob}
    (hfind : db.jobs.find? job.jobId = some job) (horphan : job.state ∈ orphanStates) (k : Nat) :
    ∃ row, (maintained m moment k db).jobs.find? job.jobId = some row ∧
      (row = job ∨ row.state = .cleaned) := by
  induction k with
  | zero => exact ⟨job, hfind, Or.inl rfl⟩
  | succ k ih =>
    obtain ⟨row, hrow, hsame⟩ := ih
    have hstate : row.state ∉ activeStates := by
      rcases hsame with rfl | hcleaned
      · exact not_active_of_orphan horphan
      · rw [hcleaned]
        decide
    refine ⟨cleanOf moment (cleanedIds m moment (maintained m moment k db)) row, ?_, ?_⟩
    · show (runMaintenance m moment _).2.jobs.find? _ = _
      rw [runMaintenance_find? hexecute hdeleter, reaped_find? hrow hstate, Option.map_some]
    · unfold cleanOf
      split
      · exact Or.inr rfl
      · exact hsame

/-- An orphan is cleaned when it has left the queue. -/
theorem cleaned_iff_left {db : AudioDb} {job : MemoirAudioJob}
    (hfind : db.jobs.find? job.jobId = some job) (horphan : job.state ∈ orphanStates)
    (hkey : job.objectKey ≠ none) (k : Nat) :
    (∃ row, (maintained m moment k db).jobs.find? job.jobId = some row ∧ row.state = .cleaned) ↔
      job ∉ Batches.passes (deletable m moment) m.limit k (orphanQueue (reaped m moment db)) := by
  rw [← orphanQueue_maintained hexecute hdeleter]
  constructor
  · rintro ⟨row, hrow, hcleaned⟩ hmem
    -- the row of an orphan in the queue is not cleaned
    have hfind' := (mem_orphanQueue.mp hmem).1
    have hstate : row.state ∉ activeStates := by
      rw [hcleaned]
      decide
    rw [reaped_find? hrow hstate] at hfind'
    injection hfind' with hsame
    rw [← hsame, hcleaned] at horphan
    revert horphan
    decide
  · intro hleft
    obtain ⟨row, hrow, rfl | hcleaned⟩ := maintained_row hexecute hdeleter hfind horphan k
    · exact absurd (mem_orphanQueue.mpr
        ⟨reaped_find? hrow (not_active_of_orphan horphan), horphan, hkey⟩) hleft
    · exact ⟨row, hrow, hcleaned⟩

end

/-- An orphan is in the queue of the first pass. -/
theorem mem_orphanQueue_reaped {m : Maintenance} {moment : Time} {db : AudioDb}
    {job : MemoirAudioJob} (hfind : db.jobs.find? job.jobId = some job)
    (horphan : job.state ∈ orphanStates) (hkey : job.objectKey ≠ none) :
    job ∈ orphanQueue (reaped m moment db) :=
  mem_orphanQueue.mpr ⟨reaped_find? hfind (not_active_of_orphan horphan), horphan, hkey⟩

/-- **Which orphans are ever reached.** An orphan that the cascade would
delete is cleaned after some of the passes exactly if fewer of the orphans
in front of it than the limit are kept. -/
theorem orphan_cleaned_iff (m : Maintenance) (moment : Time) (hexecute : m.execute = true)
    (hdeleter : ∀ job, m.ossDeleter job ≠ .raised) (db : AudioDb) (job : MemoirAudioJob)
    (hfind : db.jobs.find? job.jobId = some job) (horphan : job.state ∈ orphanStates)
    (hkey : job.objectKey ≠ none) (hverdict : verdict m moment job = .deleteCandidate) :
    (∃ k row, (maintained m moment k db).jobs.find? job.jobId = some row ∧
        row.state = .cleaned) ↔ keptBefore m moment db job < m.limit := by
  rw [exists_congr fun k => cleaned_iff_left hexecute hdeleter hfind horphan hkey k]
  exact Batches.leaves_iff (nodup_orphanQueue _) (mem_orphanQueue_reaped hfind horphan hkey)
    (decide_eq_true hverdict)

/-! ## A published recording in front -/

/-- The recording of a scene, uploaded and nothing more. -/
def uploadedJob (jobId : String) (updatedAt : Time) : MemoirAudioJob where
  jobId := jobId
  businessId := "book"
  slot := {
    runId := "run"
    generationEpoch := 1
    packageVersion := "1.0.0"
    role := .narration
    sceneId := jobId
    segmentIndex := noSegmentIndex
    inputHmac := jobId }
  state := .uploaded
  objectKey := some jobId
  currency := "CNY"
  leaseOwner := .named "worker"
  updatedAt := updatedAt

/-- The book plays the first recording and not the second. -/
def twoRecordings : AudioDb where
  jobs := ⟨[uploadedJob "played" 0, uploadedJob "dropped" 1], by decide⟩

/-- One orphan in a pass; the book is published with the first recording. -/
def singleBatch : Maintenance where
  retentionHours := 1
  limit := 1
  execute := true
  publishProbe := some fun _ => .value (.obj [("audio_object_keys", .arr [.str "played"])])
  ossDeleter := fun _ => .deleted

/-- The moment of the passes, after the retention. -/
def laterMoment : Time := seconds 7200

/-- The recording that is played fills every batch, and the other one is
never cleaned. -/
theorem played_recording_blocks :
    (verdict singleBatch laterMoment (uploadedJob "dropped" 1) = .deleteCandidate ∧
      1 ≤ singleBatch.limit) ∧
    ¬ ∃ k row, (maintained singleBatch laterMoment k twoRecordings).jobs.find? "dropped"
      = some row ∧ row.state = .cleaned := by
  have hfind : twoRecordings.jobs.find? (uploadedJob "dropped" 1).jobId
      = some (uploadedJob "dropped" 1) := rfl
  refine ⟨⟨by decide, by decide⟩, ?_⟩
  rintro ⟨k, hcleaned⟩
  have hexecute : singleBatch.execute = true := rfl
  have hdeleter : ∀ job, singleBatch.ossDeleter job ≠ .raised := fun _ h => by cases h
  apply (cleaned_iff_left hexecute hdeleter hfind (by decide) (by decide) k).mp hcleaned
  have hqueue : orphanQueue (reaped singleBatch laterMoment twoRecordings)
      = [uploadedJob "played" 0] ++ [uploadedJob "dropped" 1] := by
    with_unfolding_all rfl
  rw [hqueue, Batches.passes_front _ (by decide)]
  exact List.mem_append_right _ List.mem_cons_self

/-- With two orphans in a pass the other one is cleaned. -/
theorem dropped_recording_cleaned :
    ∃ k row, (maintained { singleBatch with limit := 2 } laterMoment k twoRecordings).jobs.find?
      "dropped" = some row ∧ row.state = .cleaned :=
  (orphan_cleaned_iff { singleBatch with limit := 2 } laterMoment rfl (fun _ h => by cases h)
    twoRecordings (uploadedJob "dropped" 1) rfl (by decide) (by decide) (by decide)).mpr
    (by decide)

end MemoirAudioMaintenance

end AgentRuntime
