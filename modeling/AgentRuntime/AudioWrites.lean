import AgentRuntime.AudioJobs

/-!
# What the operations of the audio ledger write

One inversion lemma for each operation: where it succeeds, which row it
found and the row it leaves. `Atomic` operations leave the tables as they
were when they raise; every operation of the service is one.
-/

namespace AgentRuntime

open Keyed

namespace AudioM

variable {α β : Type} {db db' : AudioDb}

theorem bind_ok {x : AudioM α} {f : α → AudioM β} {b : β} (h : (x >>= f) db = (.ok b, db')) :
    ∃ a db₁, x db = (.ok a, db₁) ∧ f a db₁ = (.ok b, db') := by
  change AudioM.bind x f db = _ at h
  unfold AudioM.bind at h
  split at h
  next a db₁ hx => exact ⟨a, db₁, hx, h⟩
  next => cases h

theorem read_bind_ok {f : AudioDb → Result α} {g : α → AudioM β} {b : β}
    (h : (read f >>= g) db = (.ok b, db')) : ∃ a, f db = .ok a ∧ g a db = (.ok b, db') := by
  obtain ⟨a, db₁, hread, hg⟩ := bind_ok h
  unfold read at hread
  injection hread with hf hdb
  subst hdb
  exact ⟨a, hf, hg⟩

theorem require_bind_ok {c : Prop} [Decidable c] {e : ServiceError} {g : Unit → AudioM β} {b : β}
    (h : (read (fun _ => require c e) >>= g) db = (.ok b, db')) : c ∧ g () db = (.ok b, db') := by
  obtain ⟨_, hc, hg⟩ := read_bind_ok h
  exact ⟨require_ok.mp hc, hg⟩

theorem pure_ok {a b : α} (h : (pure a : AudioM α) db = (.ok b, db')) : b = a ∧ db' = db := by
  injection h with ha hdb
  injection ha with ha
  exact ⟨ha.symm, hdb.symm⟩

theorem savepoint_ok {x : AudioM α} {a : α} (h : savepoint x db = (.ok a, db')) :
    x db = (.ok a, db') := by
  unfold savepoint at h
  split at h
  next hx => exact hx.trans h
  next => cases h

/-- When the operation raises it leaves the tables as they were. -/
def Atomic (x : AudioM α) : Prop := ∀ db e db', x db = (.error e, db') → db' = db

theorem atomic_pure (a : α) : Atomic (pure a : AudioM α) := by
  intro db e db' h
  injection h with ha _
  cases ha

theorem atomic_raise (e : ServiceError) : Atomic (raise e : AudioM α) := by
  intro db e db' h
  injection h with _ hdb
  exact hdb.symm

theorem atomic_savepoint (x : AudioM α) : Atomic (savepoint x) := by
  intro db e db' h
  unfold savepoint at h
  split at h
  · cases h
  · injection h with _ hdb
    exact hdb.symm

/-- A read never writes, so what follows it decides. -/
theorem atomic_read_bind {f : AudioDb → Result α} {g : α → AudioM β} (hg : ∀ a, Atomic (g a)) :
    Atomic (read f >>= g) := by
  intro db e db' h
  change AudioM.bind (read f) g db = _ at h
  unfold AudioM.bind read at h
  split at h
  next a db₁ hread =>
    injection hread with _ hdb
    exact (hg a db₁ e db' h).trans hdb.symm
  next hread =>
    injection hread with _ hdb
    injection h with _ hdb'
    exact hdb'.symm.trans hdb.symm

end AudioM

/-- `reserved_total_cost` of a run; nothing is reserved where there is no row. -/
def AudioDb.budget (db : AudioDb) (runId : String) : Rat :=
  ((db.budgets.find? runId).map MemoirAudioRunBudget.reservedTotalCost).getD 0

@[simp] theorem AudioDb.budget_putJob (db : AudioDb) (job : MemoirAudioJob) (runId : String) :
    (db.putJob job).budget runId = db.budget runId := rfl

@[simp] theorem AudioDb.runs_putJob (db : AudioDb) (job : MemoirAudioJob) :
    (db.putJob job).runs = db.runs := rfl

@[simp] theorem AudioDb.jobs_putJob (db : AudioDb) (job : MemoirAudioJob) :
    (db.putJob job).jobs = db.jobs.put job := rfl

namespace MemoirAudioJobsService

open AudioM

variable {db db' : AudioDb} {jobId : String} {token : Nat} {states : List AudioState} {now : Time}
  {job : MemoirAudioJob}

/-! ## Writing a row -/

@[simp] theorem written_jobId (values : MemoirAudioJob → MemoirAudioJob) (row : MemoirAudioJob) :
    (written values now row).jobId = row.jobId := rfl

@[simp] theorem written_slot (values : MemoirAudioJob → MemoirAudioJob) (row : MemoirAudioJob) :
    (written values now row).slot = row.slot := rfl

theorem loadForWrite_ok {checkExpiry : Bool} {owner : Option LeaseOwner} :
    loadForWrite jobId token states now checkExpiry owner db = .ok job ↔
      db.jobs.find? jobId = some job ∧
      assertRunActive job.slot.runId (some (owner.getD job.leaseOwner)) db = .ok () ∧
      job.leaseToken = token ∧ (checkExpiry = true → ∃ expiry ∈ job.expiresAt, now < expiry) ∧
      job.state ∈ states := by
  unfold loadForWrite
  cases hfind : db.jobs.find? jobId with
  | none => simp
  | some row =>
    simp only [Option.some.injEq]
    constructor
    · intro h
      obtain ⟨_, hrun, h⟩ := AgentRuntime.bind_ok.mp h
      obtain ⟨_, htoken, h⟩ := AgentRuntime.bind_ok.mp h
      obtain ⟨_, hexpiry, h⟩ := AgentRuntime.bind_ok.mp h
      obtain ⟨_, hstate, h⟩ := AgentRuntime.bind_ok.mp h
      cases h
      exact ⟨rfl, hrun, require_ok.mp htoken, require_ok.mp hexpiry, require_ok.mp hstate⟩
    · rintro ⟨rfl, hrun, htoken, hexpiry, hstate⟩
      exact AgentRuntime.bind_ok.mpr ⟨(), hrun, AgentRuntime.bind_ok.mpr ⟨(),
        require_ok.mpr htoken, AgentRuntime.bind_ok.mpr ⟨(), require_ok.mpr hexpiry,
          AgentRuntime.bind_ok.mpr ⟨(), require_ok.mpr hstate, rfl⟩⟩⟩⟩

theorem casUpdate_ok {row : MemoirAudioJob} {values : MemoirAudioJob → MemoirAudioJob}
    (hrow : db.jobs.find? jobId = some row)
    (h : casUpdate row token states now values db = (.ok job, db')) :
    job = written values now row ∧ db' = db.putJob (written values now row) := by
  have hfind : db.jobs.find? row.jobId = some row := by
    rw [Table.key_of_find? hrow]
    exact hrow
  unfold casUpdate at h
  rw [hfind] at h
  dsimp only at h
  split at h
  · injection h with hjob hdb
    injection hjob with hjob
    exact ⟨hjob.symm, hdb.symm⟩
  · cases h

theorem atomic_casUpdate (row : MemoirAudioJob) (values : MemoirAudioJob → MemoirAudioJob) :
    Atomic (casUpdate row token states now values) := by
  intro db e db' h
  unfold casUpdate at h
  split at h
  · injection h with _ hdb
    exact hdb.symm
  · split at h
    · cases h
    · injection h with _ hdb
      exact hdb.symm

/-- A write found the row of the job, with the token and in one of the
states, and left `values` of it. -/
structure Wrote (db : AudioDb) (jobId : String) (token : Nat) (states : List AudioState)
    (now : Time) (values : MemoirAudioJob → MemoirAudioJob) (job : MemoirAudioJob)
    (db' : AudioDb) (row : MemoirAudioJob) : Prop where
  found : db.jobs.find? jobId = some row
  token : row.leaseToken = token
  state : row.state ∈ states
  job : job = written values now row
  db : db' = db.putJob (written values now row)

theorem fencedUpdate_ok {values : MemoirAudioJob → MemoirAudioJob} {checkExpiry : Bool}
    (h : fencedUpdate jobId token states now values checkExpiry db = (.ok job, db')) :
    ∃ row, Wrote db jobId token states now values job db' row := by
  obtain ⟨row, hload, h⟩ := read_bind_ok h
  obtain ⟨hfind, -, htoken, -, hstate⟩ := loadForWrite_ok.mp hload
  obtain ⟨hjob, hdb⟩ := casUpdate_ok hfind h
  exact ⟨row, hfind, htoken, hstate, hjob, hdb⟩

theorem atomic_fencedUpdate (values : MemoirAudioJob → MemoirAudioJob) (checkExpiry : Bool) :
    Atomic (fencedUpdate jobId token states now values checkExpiry) :=
  atomic_read_bind fun row => atomic_casUpdate row values

/-! ## The operations, one by one -/

theorem markSubmitted_ok {taskId : Option String}
    (h : markSubmitted jobId token taskId now db = (.ok job, db')) :
    ∃ row, Wrote db jobId token [.submitting, .submitted] now (fun row =>
      { row with
        state := .submitted
        providerTaskId := if taskId = some "" then none else taskId }) job db' row ∧
      (row.slot.role = .backgroundMusic → ∃ id, taskId = some id ∧ id ≠ "") := by
  obtain ⟨row, hload, h⟩ := read_bind_ok h
  obtain ⟨hfind, -, htoken, -, hstate⟩ := loadForWrite_ok.mp hload
  obtain ⟨htask, h⟩ := require_bind_ok h
  obtain ⟨hjob, hdb⟩ := casUpdate_ok hfind h
  refine ⟨row, ⟨hfind, htoken, hstate, hjob, hdb⟩, fun hrole => ?_⟩
  obtain ⟨hsome, hne⟩ := htask hrole
  obtain ⟨id, rfl⟩ := Option.ne_none_iff_exists'.mp hsome
  exact ⟨id, rfl, fun hid => hne (congrArg some hid)⟩

/-- A key is recorded where there is none, and confirmed where it is the same. -/
theorem recordObjectKey_ok {key mime : String}
    (h : recordObjectKey jobId token key mime now db = (.ok job, db')) :
    ∃ row, loadForWrite jobId token activeStates now true none db = .ok row ∧
      ((row.objectKey = some key ∧ job = row ∧ db' = db) ∨
        (row.objectKey = none ∧ Wrote db jobId token activeStates now (fun row =>
          { row with objectKey := some key, mime := some mime }) job db' row)) := by
  obtain ⟨-, h⟩ := require_bind_ok h
  obtain ⟨-, h⟩ := require_bind_ok h
  obtain ⟨row, hload, h⟩ := read_bind_ok h
  obtain ⟨hfind, -, htoken, -, hstate⟩ := loadForWrite_ok.mp hload
  refine ⟨row, hload, ?_⟩
  cases hkey : row.objectKey with
  | some recorded =>
    rw [hkey] at h
    obtain ⟨hsame, h⟩ := require_bind_ok h
    obtain ⟨hjob, hdb⟩ := pure_ok h
    exact Or.inl ⟨congrArg some hsame, hjob, hdb⟩
  | none =>
    rw [hkey] at h
    obtain ⟨hjob, hdb⟩ := casUpdate_ok hfind h
    exact Or.inr ⟨rfl, hfind, htoken, hstate, hjob, hdb⟩

theorem recordUpload_ok {duration : Int}
    (h : recordUpload jobId token duration now db = (.ok job, db')) :
    ∃ row, Wrote db jobId token activeStates now (fun row =>
      { row with state := .uploaded, durationMs := some duration }) job db' row ∧
      row.objectKey ≠ none ∧ 0 < duration := by
  obtain ⟨hduration, h⟩ := require_bind_ok h
  obtain ⟨row, hload, h⟩ := read_bind_ok h
  obtain ⟨hfind, -, htoken, -, hstate⟩ := loadForWrite_ok.mp hload
  obtain ⟨hkey, h⟩ := require_bind_ok h
  obtain ⟨hjob, hdb⟩ := casUpdate_ok hfind h
  exact ⟨row, ⟨hfind, htoken, hstate, hjob, hdb⟩, hkey, hduration⟩

theorem markFailed_ok {code : String} (h : markFailed jobId token code now db = (.ok job, db')) :
    ∃ row, Wrote db jobId token activeStates now (fun row =>
      { row with state := .failed, errorCode := some code }) job db' row :=
  fencedUpdate_ok (require_bind_ok h).2

theorem markSubmissionUnknown_ok {code : String}
    (h : markSubmissionUnknown jobId token code now db = (.ok job, db')) :
    ∃ row, Wrote db jobId token [.submitting, .submitted] now (fun row =>
      { row with state := .submissionUnknown, errorCode := some code }) job db' row :=
  fencedUpdate_ok (require_bind_ok h).2

theorem settleTtsUsage_ok {policy : Option MemoirAudioCostPolicy} {words : Int}
    (h : settleTtsUsage policy jobId token words now db = (.ok job, db')) :
    ∃ p row, policy = some p ∧ 0 ≤ words ∧ Wrote db jobId token settleStates now (fun row =>
      { row with
        usageTextWords := some words
        settledCost := some (quantizeHalfUp (p.ttsCost words)) }) job db' row := by
  obtain ⟨hwords, h⟩ := require_bind_ok h
  obtain ⟨p, hpolicy, h⟩ := read_bind_ok h
  obtain ⟨row, hwrote⟩ := fencedUpdate_ok h
  cases policy with
  | none => cases hpolicy
  | some _ =>
    cases hpolicy
    exact ⟨p, row, rfl, hwords, hwrote⟩

theorem settleMusicUsage_ok {policy : Option MemoirAudioCostPolicy} {seconds : Int}
    (h : settleMusicUsage policy jobId token seconds now db = (.ok job, db')) :
    ∃ p row, policy = some p ∧ 0 < seconds ∧ Wrote db jobId token settleStates now (fun row =>
      { row with
        requestedMusicSeconds := some seconds
        settledCost := some (quantizeHalfUp (p.musicCost seconds)) }) job db' row := by
  obtain ⟨hseconds, h⟩ := require_bind_ok h
  obtain ⟨p, hpolicy, h⟩ := read_bind_ok h
  obtain ⟨row, hwrote⟩ := fencedUpdate_ok h
  cases policy with
  | none => cases hpolicy
  | some _ =>
    cases hpolicy
    exact ⟨p, row, rfl, hseconds, hwrote⟩

/-- A settlement at no cost is written once and confirmed afterwards. -/
theorem settleDefaultMusicUsage_ok (h : settleDefaultMusicUsage jobId token now db = (.ok job, db')) :
    ∃ row, (row.settledCost = some 0 ∧ db.jobs.find? jobId = some row ∧ job = row ∧ db' = db) ∨
      (row.settledCost = none ∧ Wrote db jobId token [.reserved, .uploaded] now (fun row =>
        { row with settledCost := some 0 }) job db' row) := by
  obtain ⟨row, hload, h⟩ := read_bind_ok h
  obtain ⟨hfind, -, htoken, -, hstate⟩ := loadForWrite_ok.mp hload
  refine ⟨row, ?_⟩
  cases hsettled : row.settledCost with
  | some settled =>
    rw [hsettled] at h
    obtain ⟨hzero, h⟩ := require_bind_ok h
    obtain ⟨hjob, hdb⟩ := pure_ok h
    exact Or.inl ⟨congrArg some hzero, hfind, hjob, hdb⟩
  | none =>
    rw [hsettled] at h
    obtain ⟨hjob, hdb⟩ := casUpdate_ok hfind h
    exact Or.inr ⟨rfl, hfind, htoken, hstate, hjob, hdb⟩

theorem renewLease_ok {ttl : Time} (h : renewLease jobId token ttl now db = (.ok job, db')) :
    ∃ row, Wrote db jobId token activeStates now (fun row =>
      { row with expiresAt := some (now + ttl) }) job db' row :=
  fencedUpdate_ok (require_bind_ok h).2

theorem rotateLease_ok {owner : LeaseOwner} {ttl : Time}
    (h : rotateLease jobId token owner ttl now db = (.ok job, db')) :
    ∃ row, Wrote db jobId token activeStates now (fun row =>
      { row with
        leaseToken := row.leaseToken + 1, leaseOwner := owner, expiresAt := some (now + ttl) })
      job db' row := by
  obtain ⟨-, h⟩ := require_bind_ok h
  obtain ⟨-, h⟩ := require_bind_ok h
  obtain ⟨row, hload, h⟩ := read_bind_ok h
  obtain ⟨hfind, -, htoken, -, hstate⟩ := loadForWrite_ok.mp hload
  obtain ⟨hjob, hdb⟩ := casUpdate_ok hfind h
  exact ⟨row, hfind, htoken, hstate, hjob, hdb⟩

/-! ## What a failed operation leaves -/

theorem atomic_markSubmitted (taskId : Option String) :
    Atomic (markSubmitted jobId token taskId now) :=
  atomic_read_bind fun row => atomic_read_bind fun _ => atomic_casUpdate row _

theorem atomic_recordObjectKey (key mime : String) :
    Atomic (recordObjectKey jobId token key mime now) := by
  refine atomic_read_bind fun _ => atomic_read_bind fun _ => atomic_read_bind fun row => ?_
  split
  · exact atomic_read_bind fun _ => atomic_pure row
  · exact atomic_casUpdate row _

theorem atomic_recordUpload (duration : Int) : Atomic (recordUpload jobId token duration now) :=
  atomic_read_bind fun _ => atomic_read_bind fun row => atomic_read_bind fun _ =>
    atomic_casUpdate row _

theorem atomic_markFailed (code : String) : Atomic (markFailed jobId token code now) :=
  atomic_read_bind fun _ => atomic_fencedUpdate _ _

theorem atomic_markSubmissionUnknown (code : String) :
    Atomic (markSubmissionUnknown jobId token code now) :=
  atomic_read_bind fun _ => atomic_fencedUpdate _ _

theorem atomic_settleTtsUsage (policy : Option MemoirAudioCostPolicy) (words : Int) :
    Atomic (settleTtsUsage policy jobId token words now) :=
  atomic_read_bind fun _ => atomic_read_bind fun _ => atomic_fencedUpdate _ _

theorem atomic_settleMusicUsage (policy : Option MemoirAudioCostPolicy) (seconds : Int) :
    Atomic (settleMusicUsage policy jobId token seconds now) :=
  atomic_read_bind fun _ => atomic_read_bind fun _ => atomic_fencedUpdate _ _

theorem atomic_settleDefaultMusicUsage : Atomic (settleDefaultMusicUsage jobId token now) := by
  refine atomic_read_bind fun row => ?_
  split
  · exact atomic_read_bind fun _ => atomic_pure row
  · exact atomic_casUpdate row _

theorem atomic_renewLease (ttl : Time) : Atomic (renewLease jobId token ttl now) :=
  atomic_read_bind fun _ => atomic_fencedUpdate _ _

theorem atomic_rotateLease (owner : LeaseOwner) (ttl : Time) :
    Atomic (rotateLease jobId token owner ttl now) :=
  atomic_read_bind fun _ => atomic_read_bind fun _ => atomic_read_bind fun row =>
    atomic_casUpdate row _

theorem atomic_reserveExisting (policy : Option MemoirAudioCostPolicy)
    (existing : MemoirAudioJob) (r : MemoirAudioJobReservation) :
    Atomic (reserveExisting policy existing r now) := by
  unfold reserveExisting
  split
  · exact atomic_raise _
  split
  · exact atomic_pure _
  split
  · exact atomic_raise _
  · exact atomic_savepoint _

theorem atomic_reserveNew (policy : Option MemoirAudioCostPolicy)
    (r : MemoirAudioJobReservation) : ∀ rounds, Atomic (reserveNew policy r now rounds)
  | 0 => atomic_raise _
  | rounds + 1 => by
    intro db e db' h
    have hsave := atomic_savepoint (createJob policy r now) db
    unfold reserveNew at h
    split at h
    next db₁ hcreate =>
      have hdb : db₁ = db := hsave _ _ hcreate
      subst hdb
      split at h
      · exact atomic_reserveExisting policy _ r _ _ _ h
      · split at h
        · injection h with _ hdb
          exact hdb.symm
        · exact atomic_reserveNew policy r rounds _ _ _ h
    next => exact hsave e db' h

/-- A refused reservation leaves every row as it was. -/
theorem atomic_reserveJob (policy : Option MemoirAudioCostPolicy)
    (r : MemoirAudioJobReservation) : Atomic (reserveJob policy r now) := by
  refine atomic_read_bind fun _ => ?_
  intro db e db' h
  change AudioM.bind _ _ db = _ at h
  unfold AudioM.bind at h
  split at h
  next db₁ hcheck =>
    have hdb : db₁ = db := by
      have hread := savepoint_ok hcheck
      injection hread with _ hdb
      exact hdb.symm
    subst hdb
    dsimp only at h
    split at h
    · exact atomic_reserveExisting policy _ r _ _ _ h
    · exact atomic_reserveNew policy r 2 _ _ _ h
  next db₁ hcheck =>
    injection h with _ hdb
    exact hdb.symm.trans (atomic_savepoint _ _ _ _ hcheck)

/-! ## Rewriting one row -/

/-- Nothing is written, or the row of the job is, as `P` says. -/
def Rewrites (db : AudioDb) (jobId : String) (P : MemoirAudioJob → MemoirAudioJob → Prop)
    (db' : AudioDb) : Prop :=
  db' = db ∨ ∃ row row', db.jobs.find? jobId = some row ∧ row'.jobId = row.jobId ∧
    row'.slot = row.slot ∧ P row row' ∧ db' = db.putJob row'

theorem Wrote.rewrites {values : MemoirAudioJob → MemoirAudioJob} {row : MemoirAudioJob}
    {P : MemoirAudioJob → MemoirAudioJob → Prop}
    (h : Wrote db jobId token states now values job db' row) (hP : P row (written values now row)) :
    Rewrites db jobId P db' :=
  Or.inr ⟨row, written values now row, h.found, rfl, rfl, hP, h.db⟩

/-- An operation rewrites the row where it succeeds, and nothing elsewhere. -/
theorem rewrites_of_ok {α : Type} {x : AudioM α} {P : MemoirAudioJob → MemoirAudioJob → Prop}
    (hatomic : Atomic x) (hok : ∀ a db', x db = (.ok a, db') → Rewrites db jobId P db') :
    Rewrites db jobId P (x db).2 := by
  rcases hx : x db with ⟨e | a, db'⟩
  · exact Or.inl (hatomic db e db' hx)
  · exact hok a db' hx

/-! ## What a reservation does -/

/-- The cost of the reservation is in the budget of its run, within the cap. -/
structure Booked (policy : Option MemoirAudioCostPolicy) (r : MemoirAudioJobReservation)
    (db db' : AudioDb) : Prop where
  runs : db'.runs = db.runs
  jobs : db'.jobs = db.jobs
  budget : ∀ runId, db'.budget runId
    = db.budget runId + if runId = r.slot.runId then r.estimatedCost else 0
  cap : 0 < r.estimatedCost →
    ∃ p, policy = some p ∧ db'.budget r.slot.runId ≤ p.maxCostPerRun

variable {policy : Option MemoirAudioCostPolicy} {r : MemoirAudioJobReservation}

theorem booked_upsert {p : MemoirAudioCostPolicy} {b : MemoirAudioRunBudget}
    {budgets : Table MemoirAudioRunBudget.runId} (hpolicy : policy = some p)
    (hrun : b.runId = r.slot.runId)
    (hfind : ∀ runId, budgets.find? runId
      = if runId = b.runId then some b else db.budgets.find? runId)
    (htotal : b.reservedTotalCost = db.budget r.slot.runId + r.estimatedCost)
    (hcap : b.reservedTotalCost ≤ p.maxCostPerRun) :
    Booked policy r db { db with budgets } := by
  have hbudget : ∀ runId, ({ db with budgets } : AudioDb).budget runId
      = db.budget runId + if runId = r.slot.runId then r.estimatedCost else 0 := by
    intro runId
    unfold AudioDb.budget
    rw [hfind, hrun]
    by_cases h : runId = r.slot.runId
    · rw [if_pos h, if_pos h, h]
      exact htotal
    · rw [if_neg h, if_neg h, add_zero]
  refine ⟨rfl, rfl, hbudget, fun _ => ⟨p, hpolicy, ?_⟩⟩
  rw [hbudget, if_pos rfl, ← htotal]
  exact hcap

theorem reserveBudget_ok {u : Unit} (hcost : 0 ≤ r.estimatedCost)
    (h : reserveBudget policy r db = (.ok u, db')) : Booked policy r db db' := by
  unfold reserveBudget at h
  dsimp only at h
  split at h
  next hfree =>
    obtain ⟨-, rfl⟩ := pure_ok h
    have hzero : r.estimatedCost = 0 := le_antisymm hfree hcost
    exact ⟨rfl, rfl, fun _ => by simp [hzero], fun hpos => absurd hpos (not_lt.mpr hfree)⟩
  next =>
    obtain ⟨p, hpolicy, h⟩ := read_bind_ok h
    have hpolicy : policy = some p := by
      cases policy with
      | none => cases hpolicy
      | some _ =>
        cases hpolicy
        rfl
    obtain ⟨hmax, h⟩ := require_bind_ok h
    split at h
    next hfind =>
      injection h with _ hdb
      subst hdb
      refine booked_upsert hpolicy rfl (fun runId => Table.find?_upsert _ _ _) ?_ hmax
      rw [AudioDb.budget, hfind]
      exact (zero_add _).symm
    next budget hfind =>
      split at h
      next hfits =>
        injection h with _ hdb
        subst hdb
        have hkey : budget.runId = r.slot.runId := Table.key_of_find? hfind
        have hself : db.budgets.find? budget.runId = some budget := by
          rw [hkey]
          exact hfind
        let budget' :=
          { budget with reservedTotalCost := budget.reservedTotalCost + r.estimatedCost }
        refine @booked_upsert _ _ _ p budget' _ hpolicy hkey (fun runId => ?_) ?_ hfits.2
        · rw [Table.find?_put]
          by_cases hid : runId = budget'.runId
          · rw [if_pos hid, if_pos hid, hid]
            show Option.map _ (db.budgets.find? budget.runId) = _
            rw [hself]
            rfl
          · rw [if_neg hid, if_neg hid]
        · rw [AudioDb.budget, hfind]
          rfl
      next =>
        split at h <;> cases h

/-- What a successful reservation found and did. -/
inductive Reserved (policy : Option MemoirAudioCostPolicy) (r : MemoirAudioJobReservation)
    (now : Time) (db : AudioDb) : ReservationOutcome → AudioDb → Prop
  | reused (job : MemoirAudioJob) (found : findJob r.slot db = some job)
      (state : job.state ∈ successStates) : Reserved policy r now db ⟨job, .reused⟩ db
  | retried (job : MemoirAudioJob) (db₁ : AudioDb) (found : findJob r.slot db = some job)
      (state : job.state ∈ [AudioState.failed, .cancelled, .cleaned])
      (booked : Booked policy r db db₁) :
      Reserved policy r now db ⟨revived job r now job, .retried⟩
        (db₁.putJob (revived job r now job))
  | created (p : MemoirAudioCostPolicy) (db₁ : AudioDb) (jobs : Table MemoirAudioJob.jobId)
      (found : findJob r.slot db = none) (policy_eq : policy = some p)
      (booked : Booked policy r db db₁)
      (inserted : db₁.jobs.insert? (newJob p r now) = some jobs) :
      Reserved policy r now db ⟨newJob p r now, .created⟩ { db₁ with jobs }

theorem findJob_some {slot : AudioSlot} {db : AudioDb} (h : findJob slot db = some job) :
    db.jobs.find? job.jobId = some job ∧ job.slot = slot :=
  ⟨Table.find?_of_mem (List.mem_of_find?_eq_some h), by simpa using List.find?_some h⟩

theorem reserveExisting_ok {outcome : ReservationOutcome} (hcost : 0 ≤ r.estimatedCost)
    (hfound : findJob r.slot db = some job)
    (h : reserveExisting policy job r now db = (.ok outcome, db')) :
    Reserved policy r now db outcome db' := by
  unfold reserveExisting at h
  split at h
  · cases h
  next hunknown =>
    split at h
    next hsuccess =>
      obtain ⟨rfl, rfl⟩ := pure_ok h
      exact .reused job hfound hsuccess
    next hsuccess =>
      split at h
      · cases h
      next hactive =>
        obtain ⟨_, db₁, hbudget, h⟩ := AudioM.bind_ok (savepoint_ok h)
        have hbooked := reserveBudget_ok hcost hbudget
        rw [hbooked.jobs, (findJob_some hfound).1] at h
        dsimp only at h
        rw [if_pos rfl] at h
        injection h with hout hdb
        injection hout with hout
        subst hout hdb
        refine .retried job db₁ hfound ?_ hbooked
        cases hs : job.state <;> simp_all [successStates, activeStates]

theorem createJob_ok {outcome : ReservationOutcome} (hcost : 0 ≤ r.estimatedCost)
    (hfound : findJob r.slot db = none)
    (h : createJob policy r now db = (.ok outcome, db')) : Reserved policy r now db outcome db' := by
  obtain ⟨_, db₁, hbudget, h⟩ := AudioM.bind_ok h
  obtain ⟨p, hpolicy, h⟩ := read_bind_ok h
  have hpolicy : policy = some p := by
    cases policy with
    | none => cases hpolicy
    | some _ =>
      cases hpolicy
      rfl
  dsimp only at h
  split at h
  next jobs hinsert =>
    injection h with hout hdb
    injection hout with hout
    subst hout hdb
    exact .created p db₁ jobs hfound hpolicy (reserveBudget_ok hcost hbudget) hinsert
  · cases h

theorem reserveNew_ok {outcome : ReservationOutcome} (hcost : 0 ≤ r.estimatedCost)
    (hfound : findJob r.slot db = none) :
    ∀ rounds, reserveNew policy r now rounds db = (.ok outcome, db') →
      Reserved policy r now db outcome db'
  | 0, h => nomatch h
  | rounds + 1, h => by
    unfold reserveNew at h
    split at h
    next db₁ hcreate =>
      have hdb : db₁ = db := atomic_savepoint _ _ _ _ hcreate
      rw [hdb, hfound] at h
      simp only at h
      split at h
      · cases h
      · exact reserveNew_ok hcost hfound rounds h
    next => exact createJob_ok hcost hfound (savepoint_ok h)

theorem reserveJob_ok {outcome : ReservationOutcome}
    (h : reserveJob policy r now db = (.ok outcome, db')) :
    validateReservation r = .ok () ∧ checkSlot r db = .ok () ∧
      Reserved policy r now db outcome db' := by
  obtain ⟨_, hvalid, h⟩ := read_bind_ok h
  obtain ⟨_, db₁, hcheck, h⟩ := AudioM.bind_ok h
  have hread := savepoint_ok hcheck
  injection hread with hslot hdb
  subst hdb
  refine ⟨hvalid, hslot, ?_⟩
  have hcost : 0 ≤ r.estimatedCost := by
    obtain ⟨_, -, hvalid⟩ := AgentRuntime.bind_ok.mp hvalid
    obtain ⟨_, hcost, -⟩ := AgentRuntime.bind_ok.mp hvalid
    exact require_ok.mp hcost
  split at h
  next hfound => exact reserveExisting_ok hcost hfound h
  next hfound => exact reserveNew_ok hcost hfound 2 h

end MemoirAudioJobsService

end AgentRuntime
