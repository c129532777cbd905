import Mathlib.Algebra.Order.Floor.Ring
import Mathlib.Tactic.Linarith
import Mathlib.Tactic.Positivity
import AgentRuntime.Lib.Runs
import AgentRuntime.Lib.Totals
import AgentRuntime.AudioMaintenance

/-!
# The audio budget of a run

The budget row of a run and the rows of its jobs are written by different
statements. `audio_budget_conserved` is what holds between them after any
sequence of operations: the budget is the sum of what the jobs have
reserved, within the cap of the policy, and what is settled stays below it
as long as the provider bills no more than was reserved.

`usages` is what the reservations of a job were for, in text words and
seconds. The ledger does not keep it: a reservation brings only its cost.
-/

namespace AgentRuntime

open Keyed Runs MemoirAudioJobsService MemoirAudioMaintenance

/-! ## Rounding -/

theorem quantizeCeiling_mono {a b : Rat} (h : a ≤ b) : quantizeCeiling a ≤ quantizeCeiling b := by
  unfold quantizeCeiling
  have hceil : (⌈a * 1000000⌉ : Rat) ≤ ⌈b * 1000000⌉ := by
    exact_mod_cast Int.ceil_mono (mul_le_mul_of_nonneg_right h (by norm_num))
  linarith

theorem quantizeCeiling_add_le (a b : Rat) :
    quantizeCeiling (a + b) ≤ quantizeCeiling a + quantizeCeiling b := by
  unfold quantizeCeiling
  have hceil : (⌈(a + b) * 1000000⌉ : Rat) ≤ ⌈a * 1000000⌉ + ⌈b * 1000000⌉ := by
    rw [add_mul]
    exact_mod_cast Int.ceil_add_le (a * 1000000) (b * 1000000)
  linarith

theorem quantizeCeiling_nonneg {a : Rat} (h : 0 ≤ a) : 0 ≤ quantizeCeiling a := by
  unfold quantizeCeiling
  have hceil : (0 : Rat) ≤ ⌈a * 1000000⌉ := by
    exact_mod_cast Int.ceil_nonneg (mul_nonneg h (by norm_num))
  linarith

/-- What is rounded half up is at most what is rounded up. -/
theorem quantizeHalfUp_le (a : Rat) : quantizeHalfUp a ≤ quantizeCeiling a := by
  unfold quantizeHalfUp quantizeCeiling
  have hfloor : ⌊a * 1000000 + 1 / 2⌋ < ⌈a * 1000000⌉ + 1 := by
    rw [Int.floor_lt]
    push_cast
    linarith [Int.le_ceil (a * 1000000)]
  have hle : (⌊a * 1000000 + 1 / 2⌋ : Rat) ≤ ⌈a * 1000000⌉ := by
    exact_mod_cast Int.lt_add_one_iff.mp hfloor
  linarith

/-! ## The operations of a run -/

/-- What a reservation is for. -/
structure Usage where
  textWords : Nat := 0
  musicSeconds : Nat := 0

/-- The estimates of `estimate_tts_cost` and `estimate_music_cost`. -/
def Usage.estimate (policy : MemoirAudioCostPolicy) (usage : Usage) : Rat :=
  quantizeCeiling (policy.ttsCost usage.textWords)
    + quantizeCeiling (policy.musicCost usage.musicSeconds)

/-- An operation on the ledger, with what a reservation is for; `setRun`
is any change of a run by other services. -/
inductive AudioOp
  | reserve (r : MemoirAudioJobReservation) (usage : Usage)
  | markSubmitting (jobId : String) (leaseToken : Nat)
  | markSubmitted (jobId : String) (leaseToken : Nat) (providerTaskId : Option String)
  | markProcessing (jobId : String) (leaseToken : Nat)
  | recordObjectKey (jobId : String) (leaseToken : Nat) (objectKey mime : String)
  | recordUpload (jobId : String) (leaseToken : Nat) (durationMs : Int)
  | markPublished (jobId : String) (leaseToken : Nat)
  | markFailed (jobId : String) (leaseToken : Nat) (errorCode : String)
  | markCancelled (jobId : String) (leaseToken : Nat) (errorCode : Option String)
  | markSubmissionUnknown (jobId : String) (leaseToken : Nat) (errorCode : String)
  | settleTtsUsage (jobId : String) (leaseToken : Nat) (usageTextWords : Int)
  | settleMusicUsage (jobId : String) (leaseToken : Nat) (requestedMusicSeconds : Int)
  | settleDefaultMusicUsage (jobId : String) (leaseToken : Nat)
  | renewLease (jobId : String) (leaseToken : Nat) (ttl : Time)
  | rotateLease (jobId : String) (leaseToken : Nat) (owner : LeaseOwner) (ttl : Time)
  | maintain (m : Maintenance)
  | setRun (agentRun : AgentRun)

/-- The tables after the operation, also where it raises. -/
def AudioOp.perform (policy : MemoirAudioCostPolicy) (now : Time) (db : AudioDb) :
    AudioOp → AudioDb
  | .reserve r _ => (reserveJob (some policy) r now db).2
  | .markSubmitting jobId token => (MemoirAudioJobsService.markSubmitting jobId token now db).2
  | .markSubmitted jobId token taskId =>
    (MemoirAudioJobsService.markSubmitted jobId token taskId now db).2
  | .markProcessing jobId token => (MemoirAudioJobsService.markProcessing jobId token now db).2
  | .recordObjectKey jobId token key mime =>
    (MemoirAudioJobsService.recordObjectKey jobId token key mime now db).2
  | .recordUpload jobId token duration =>
    (MemoirAudioJobsService.recordUpload jobId token duration now db).2
  | .markPublished jobId token => (MemoirAudioJobsService.markPublished jobId token now db).2
  | .markFailed jobId token code => (MemoirAudioJobsService.markFailed jobId token code now db).2
  | .markCancelled jobId token code =>
    (MemoirAudioJobsService.markCancelled jobId token code now db).2
  | .markSubmissionUnknown jobId token code =>
    (MemoirAudioJobsService.markSubmissionUnknown jobId token code now db).2
  | .settleTtsUsage jobId token words =>
    (MemoirAudioJobsService.settleTtsUsage (some policy) jobId token words now db).2
  | .settleMusicUsage jobId token seconds =>
    (MemoirAudioJobsService.settleMusicUsage (some policy) jobId token seconds now db).2
  | .settleDefaultMusicUsage jobId token =>
    (MemoirAudioJobsService.settleDefaultMusicUsage jobId token now db).2
  | .renewLease jobId token ttl => (MemoirAudioJobsService.renewLease jobId token ttl now db).2
  | .rotateLease jobId token owner ttl =>
    (MemoirAudioJobsService.rotateLease jobId token owner ttl now db).2
  | .maintain m => (runMaintenance m now db).2
  | .setRun agentRun => { db with runs := db.runs.upsert agentRun }

/-- A reservation that took a slot, or took it again. -/
structure JobUsage where
  jobId : String
  usage : Usage

def reservedUsage (usage : Usage) : Except ServiceError ReservationOutcome → List JobUsage
  | .ok ⟨job, .created⟩ | .ok ⟨job, .retried⟩ => [⟨job.jobId, usage⟩]
  | .ok ⟨_, .reused⟩ | .error _ => []

structure AudioBooks where
  db : AudioDb := {}
  usages : List JobUsage := []

/-- The time and the operation. -/
def AudioBooks.step (policy : MemoirAudioCostPolicy) (s : AudioBooks) (e : Time × AudioOp) :
    AudioBooks where
  db := e.2.perform policy e.1 s.db
  usages :=
    match e.2 with
    | .reserve r usage =>
      s.usages ++ reservedUsage usage (reserveJob (some policy) r e.1 s.db).1
    | _ => s.usages

/-- The text words reserved for a job, over all its attempts. -/
def AudioBooks.textWords (s : AudioBooks) (jobId : String) : Nat :=
  ((s.usages.filter fun u => decide (u.jobId = jobId)).map fun u => u.usage.textWords).sum

/-- The music seconds reserved for a job, over all its attempts. -/
def AudioBooks.musicSeconds (s : AudioBooks) (jobId : String) : Nat :=
  ((s.usages.filter fun u => decide (u.jobId = jobId)).map fun u => u.usage.musicSeconds).sum

/-- What a job has reserved for the run. -/
def MemoirAudioJob.reservedFor (runId : String) (job : MemoirAudioJob) : Rat :=
  if job.slot.runId = runId then job.reservedCost else 0

def MemoirAudioJob.settledFor (runId : String) (job : MemoirAudioJob) : Rat :=
  if job.slot.runId = runId then job.settledCost.getD 0 else 0

/-- The sum of `reserved_cost` over the jobs of a run. -/
def AudioDb.reservedCost (db : AudioDb) (runId : String) : Rat :=
  db.jobs.total (MemoirAudioJob.reservedFor runId)

/-- The sum of `settled_cost` over the jobs of a run. -/
def AudioDb.settledCost (db : AudioDb) (runId : String) : Rat :=
  db.jobs.total (MemoirAudioJob.settledFor runId)

/-- What a run of operations has to meet for its settlements to be covered:
a reservation costs what it is for, and nothing is billed beyond it. -/
def Billed (policy : MemoirAudioCostPolicy) (s : AudioBooks) (e : Time × AudioOp) : Prop :=
  match e.2 with
  | .reserve r usage => usage.estimate policy ≤ r.estimatedCost
  | .settleTtsUsage jobId _ words => words ≤ s.textWords jobId
  | .settleMusicUsage jobId _ seconds => seconds ≤ s.musicSeconds jobId
  | _ => True

instance (policy : MemoirAudioCostPolicy) (s : AudioBooks) (e : Time × AudioOp) :
    Decidable (Billed policy s e) :=
  match e with
  | (_, .reserve r usage) => inferInstanceAs (Decidable (usage.estimate policy ≤ r.estimatedCost))
  | (_, .settleTtsUsage jobId _ words) =>
    inferInstanceAs (Decidable (words ≤ (s.textWords jobId : Int)))
  | (_, .settleMusicUsage jobId _ seconds) =>
    inferInstanceAs (Decidable (seconds ≤ (s.musicSeconds jobId : Int)))
  | (_, .markSubmitting ..) | (_, .markSubmitted ..) | (_, .markProcessing ..)
  | (_, .recordObjectKey ..) | (_, .recordUpload ..) | (_, .markPublished ..)
  | (_, .markFailed ..) | (_, .markCancelled ..) | (_, .markSubmissionUnknown ..)
  | (_, .settleDefaultMusicUsage ..) | (_, .renewLease ..) | (_, .rotateLease ..)
  | (_, .maintain ..) | (_, .setRun ..) => .isTrue trivial

/-! ## Rows that keep their amounts -/

/-- The row of the same job, with the same amount reserved. -/
structure SameBooking (row row' : MemoirAudioJob) : Prop where
  jobId : row'.jobId = row.jobId
  slot : row'.slot = row.slot
  reserved : row'.reservedCost = row.reservedCost

theorem SameBooking.refl (row : MemoirAudioJob) : SameBooking row row := ⟨rfl, rfl, rfl⟩

/-- The budgets stay, and every row changes as `P` says. -/
structure RowsChange (P : MemoirAudioJob → MemoirAudioJob → Prop) (db db' : AudioDb) : Prop where
  budgets : db'.budgets = db.budgets
  rows : ∃ f, db'.jobs.rows = db.jobs.rows.map f ∧ ∀ row ∈ db.jobs.rows, P row (f row)

section RowsChange

variable {P : MemoirAudioJob → MemoirAudioJob → Prop} {db db' db'' : AudioDb}

theorem RowsChange.refl (hP : ∀ row, P row row) (db : AudioDb) : RowsChange P db db :=
  ⟨rfl, id, (List.map_id _).symm, fun row _ => hP row⟩

theorem RowsChange.trans (hP : ∀ {a b c}, P a b → P b c → P a c) (h : RowsChange P db db')
    (h' : RowsChange P db' db'') : RowsChange P db db'' := by
  obtain ⟨f, hrows, hf⟩ := h.rows
  obtain ⟨g, hrows', hg⟩ := h'.rows
  refine ⟨h'.budgets.trans h.budgets, g ∘ f, ?_, fun row hrow => ?_⟩
  · rw [hrows', hrows, List.map_map]
  · refine hP (hf row hrow) (hg (f row) ?_)
    rw [hrows]
    exact List.mem_map_of_mem hrow

theorem RowsChange.mono {Q : MemoirAudioJob → MemoirAudioJob → Prop}
    (hPQ : ∀ row row', P row row' → Q row row') (h : RowsChange P db db') : RowsChange Q db db' := by
  obtain ⟨f, hrows, hf⟩ := h.rows
  exact ⟨h.budgets, f, hrows, fun row hrow => hPQ _ _ (hf row hrow)⟩

theorem RowsChange.mapRows (f : MemoirAudioJob → MemoirAudioJob)
    (hkey : ∀ row, (f row).jobId = row.jobId) (hP : ∀ row, P row (f row)) :
    RowsChange P db { db with jobs := db.jobs.mapRows f hkey } :=
  ⟨rfl, f, rfl, fun row _ => hP row⟩

theorem RowsChange.putJob (hrefl : ∀ row, P row row) (row : MemoirAudioJob) {row' : MemoirAudioJob}
    (hfind : db.jobs.find? row'.jobId = some row) (hP : P row row') :
    RowsChange P db (db.putJob row') := by
  refine ⟨rfl, fun r => if r.jobId = row'.jobId then row' else r, rfl, fun r hr => ?_⟩
  dsimp only
  split
  next hkey =>
    have hsame := Table.find?_of_mem hr
    rw [hkey, hfind] at hsame
    injection hsame with hsame
    rw [← hsame]
    exact hP
  · exact hrefl r

theorem RowsChange.mem (h : RowsChange P db db') {row' : MemoirAudioJob}
    (hmem : row' ∈ db'.jobs.rows) : ∃ row ∈ db.jobs.rows, P row row' := by
  obtain ⟨f, hrows, hf⟩ := h.rows
  rw [hrows] at hmem
  obtain ⟨row, hrow, rfl⟩ := List.mem_map.mp hmem
  exact ⟨row, hrow, hf row hrow⟩

theorem RowsChange.budget (h : RowsChange P db db') (runId : String) :
    db'.budget runId = db.budget runId := by
  unfold AudioDb.budget
  rw [h.budgets]

/-- Where the amounts stay, so does their sum. -/
theorem RowsChange.reservedCost (h : RowsChange P db db')
    (hP : ∀ row row', P row row' → SameBooking row row') (runId : String) :
    db'.reservedCost runId = db.reservedCost runId := by
  obtain ⟨f, hrows, hf⟩ := h.rows
  unfold AudioDb.reservedCost Table.total
  rw [hrows, List.map_map]
  refine congrArg List.sum (List.map_congr_left fun row hrow => ?_)
  obtain ⟨-, hslot, hcost⟩ := hP _ _ (hf row hrow)
  show (f row).reservedFor runId = row.reservedFor runId
  unfold MemoirAudioJob.reservedFor
  rw [hslot, hcost]

end RowsChange

/-- A rewrite of one row is a change of the rows. -/
theorem rowsChange_of_rewrites {db db' : AudioDb} {jobId : String}
    {P : MemoirAudioJob → MemoirAudioJob → Prop} (hrefl : ∀ row, P row row)
    (h : Rewrites db jobId P db') : RowsChange P db db' := by
  rcases h with rfl | ⟨row, row', hfind, hkey, -, hP, rfl⟩
  · exact RowsChange.refl hrefl _
  · refine RowsChange.putJob hrefl row ?_ hP
    rw [hkey, Table.key_of_find? hfind]
    exact hfind

/-- The amount reserved stays, and what is settled stays or becomes nothing. -/
structure KeepsAmounts (row row' : MemoirAudioJob) : Prop where
  booking : SameBooking row row'
  settled : row'.settledCost.getD 0 = row.settledCost.getD 0 ∨ row'.settledCost.getD 0 = 0

theorem KeepsAmounts.refl (row : MemoirAudioJob) : KeepsAmounts row row :=
  ⟨.refl row, Or.inl rfl⟩

theorem KeepsAmounts.trans {a b c : MemoirAudioJob} (h : KeepsAmounts a b)
    (h' : KeepsAmounts b c) : KeepsAmounts a c := by
  obtain ⟨⟨hid, hslot, hcost⟩, hsettled⟩ := h
  obtain ⟨⟨hid', hslot', hcost'⟩, hsettled'⟩ := h'
  refine ⟨⟨hid'.trans hid, hslot'.trans hslot, hcost'.trans hcost⟩, ?_⟩
  rcases hsettled' with hsame | hzero
  · rcases hsettled with hold | hzero
    · exact Or.inl (hsame.trans hold)
    · exact Or.inr (hsame.trans hzero)
  · exact Or.inr hzero

/-- The amount reserved stays, and what is settled becomes `cost`, or stays
or becomes nothing. -/
def SettlesAt (jobId : String) (cost : Rat) (row row' : MemoirAudioJob) : Prop :=
  KeepsAmounts row row' ∨
    (SameBooking row row' ∧ row.jobId = jobId ∧ row'.settledCost = some cost)

/-! ## What each operation does to the amounts -/

theorem maintainCandidates_rowsChange (m : Maintenance) (moment : Time) :
    ∀ (jobs : List MemoirAudioJob) (report : MaintenanceReport) (calls : List DeleteCall)
      (db : AudioDb),
      RowsChange KeepsAmounts db (maintainCandidates m moment report calls jobs db).2
  | [], _, _, db => RowsChange.refl KeepsAmounts.refl db
  | job :: jobs, report, calls, db => by
    unfold maintainCandidates
    dsimp only
    split
    · exact maintainCandidates_rowsChange m moment jobs _ calls db
    split
    · exact maintainCandidates_rowsChange m moment jobs _ _ db
    · show RowsChange KeepsAmounts db (AudioM.bind _ _ db).2
      unfold AudioM.bind markCleaned
      cases hfind : db.jobs.find? job.jobId with
      | none => exact RowsChange.refl KeepsAmounts.refl db
      | some row =>
        dsimp only
        by_cases horphan : row.state ∈ orphanStates
        · rw [if_pos horphan]
          refine RowsChange.trans KeepsAmounts.trans ?_
            (maintainCandidates_rowsChange m moment jobs _ _ _)
          refine RowsChange.putJob KeepsAmounts.refl row ?_ ⟨⟨rfl, rfl, rfl⟩, Or.inl rfl⟩
          exact (Table.key_of_find? hfind).symm ▸ hfind
        · rw [if_neg horphan]
          exact RowsChange.refl KeepsAmounts.refl db

theorem reaped_rowsChange (m : Maintenance) (moment : Time) (db : AudioDb) :
    RowsChange KeepsAmounts db (reaped m moment db) := by
  unfold reaped
  split
  · refine RowsChange.trans KeepsAmounts.trans (RowsChange.mapRows _ _ fun row => ?_)
      (RowsChange.mapRows _ _ fun row => ?_)
    · split
      · exact ⟨⟨rfl, rfl, rfl⟩, Or.inl rfl⟩
      · exact KeepsAmounts.refl row
    · split
      · exact ⟨⟨rfl, rfl, rfl⟩, Or.inr rfl⟩
      · exact KeepsAmounts.refl row
  · exact RowsChange.refl KeepsAmounts.refl db

theorem runMaintenance_rowsChange (m : Maintenance) (moment : Time) (db : AudioDb) :
    RowsChange KeepsAmounts db (runMaintenance m moment db).2 :=
  RowsChange.trans KeepsAmounts.trans (reaped_rowsChange m moment db)
    (maintainCandidates_rowsChange m moment _ _ _ _)

/-- What the operation does to a row, reservations apart. -/
def AudioOp.Change (policy : MemoirAudioCostPolicy) :
    AudioOp → MemoirAudioJob → MemoirAudioJob → Prop
  | .settleTtsUsage jobId _ words => SettlesAt jobId (quantizeHalfUp (policy.ttsCost words))
  | .settleMusicUsage jobId _ seconds => SettlesAt jobId (quantizeHalfUp (policy.musicCost seconds))
  | _ => KeepsAmounts

theorem AudioOp.Change.refl (policy : MemoirAudioCostPolicy) (op : AudioOp)
    (row : MemoirAudioJob) : op.Change policy row row := by
  cases op <;> first | exact KeepsAmounts.refl row | exact Or.inl (KeepsAmounts.refl row)

theorem AudioOp.Change.sameBooking {policy : MemoirAudioCostPolicy} {op : AudioOp}
    {row row' : MemoirAudioJob} (h : op.Change policy row row') : SameBooking row row' := by
  cases op <;>
    first
      | exact h.booking
      | exact h.elim KeepsAmounts.booking And.left

/-- An operation of one write changes its row as `P` says, or nothing. -/
theorem rowsChange_of_ok {α : Type} {x : AudioM α} {db : AudioDb}
    {P : MemoirAudioJob → MemoirAudioJob → Prop} (jobId : String) (hrefl : ∀ row, P row row)
    (hatomic : AudioM.Atomic x)
    (hok : ∀ a db', x db = (.ok a, db') → Rewrites db jobId P db') :
    RowsChange P db (x db).2 :=
  rowsChange_of_rewrites hrefl (rewrites_of_ok hatomic hok)

theorem keeps_of_fencedUpdate {jobId : String} {token : Nat} {states : List AudioState}
    {now : Time} {values : MemoirAudioJob → MemoirAudioJob} {checkExpiry : Bool} {db : AudioDb}
    (hcost : ∀ row, (values row).reservedCost = row.reservedCost)
    (hsettled : ∀ row, (values row).settledCost = row.settledCost) :
    RowsChange KeepsAmounts db
      (fencedUpdate jobId token states now values checkExpiry db).2 := by
  refine rowsChange_of_ok jobId KeepsAmounts.refl (atomic_fencedUpdate _ _)
    fun a db' h => ?_
  obtain ⟨row, hwrote⟩ := fencedUpdate_ok h
  exact hwrote.rewrites ⟨⟨rfl, rfl, hcost row⟩, Or.inl (congrArg (Option.getD · 0) (hsettled row))⟩

/-- Every operation but a reservation keeps what is reserved. -/
theorem perform_rowsChange (policy : MemoirAudioCostPolicy) (now : Time) (db : AudioDb)
    (op : AudioOp) (hop : ∀ r usage, op ≠ .reserve r usage) :
    RowsChange (op.Change policy) db (op.perform policy now db) := by
  cases op with
  | reserve r usage => exact absurd rfl (hop r usage)
  | markSubmitting jobId token => exact keeps_of_fencedUpdate (fun _ => rfl) fun _ => rfl
  | markSubmitted jobId token taskId =>
    refine rowsChange_of_ok jobId KeepsAmounts.refl (atomic_markSubmitted taskId)
      fun a db' h => ?_
    obtain ⟨row, hwrote, -⟩ := markSubmitted_ok h
    exact hwrote.rewrites ⟨⟨rfl, rfl, rfl⟩, Or.inl rfl⟩
  | markProcessing jobId token => exact keeps_of_fencedUpdate (fun _ => rfl) fun _ => rfl
  | recordObjectKey jobId token key mime =>
    refine rowsChange_of_ok jobId KeepsAmounts.refl (atomic_recordObjectKey key mime)
      fun a db' h => ?_
    obtain ⟨row, -, ⟨-, -, rfl⟩ | ⟨-, hwrote⟩⟩ := recordObjectKey_ok h
    · exact Or.inl rfl
    · exact hwrote.rewrites ⟨⟨rfl, rfl, rfl⟩, Or.inl rfl⟩
  | recordUpload jobId token duration =>
    refine rowsChange_of_ok jobId KeepsAmounts.refl (atomic_recordUpload duration)
      fun a db' h => ?_
    obtain ⟨row, hwrote, -⟩ := recordUpload_ok h
    exact hwrote.rewrites ⟨⟨rfl, rfl, rfl⟩, Or.inl rfl⟩
  | markPublished jobId token => exact keeps_of_fencedUpdate (fun _ => rfl) fun _ => rfl
  | markFailed jobId token code =>
    refine rowsChange_of_ok jobId KeepsAmounts.refl (atomic_markFailed code)
      fun a db' h => ?_
    obtain ⟨row, hwrote⟩ := markFailed_ok h
    exact hwrote.rewrites ⟨⟨rfl, rfl, rfl⟩, Or.inl rfl⟩
  | markCancelled jobId token code => exact keeps_of_fencedUpdate (fun _ => rfl) fun _ => rfl
  | markSubmissionUnknown jobId token code =>
    refine rowsChange_of_ok jobId KeepsAmounts.refl
      (atomic_markSubmissionUnknown code) fun a db' h => ?_
    obtain ⟨row, hwrote⟩ := markSubmissionUnknown_ok h
    exact hwrote.rewrites ⟨⟨rfl, rfl, rfl⟩, Or.inl rfl⟩
  | settleTtsUsage jobId token words =>
    refine rowsChange_of_ok jobId (fun row => Or.inl (KeepsAmounts.refl row))
      (atomic_settleTtsUsage _ words) fun a db' h => ?_
    obtain ⟨p, row, hpolicy, -, hwrote⟩ := settleTtsUsage_ok h
    cases hpolicy
    exact hwrote.rewrites (Or.inr ⟨⟨rfl, rfl, rfl⟩, Table.key_of_find? hwrote.found, rfl⟩)
  | settleMusicUsage jobId token seconds =>
    refine rowsChange_of_ok jobId (fun row => Or.inl (KeepsAmounts.refl row))
      (atomic_settleMusicUsage _ seconds) fun a db' h => ?_
    obtain ⟨p, row, hpolicy, -, hwrote⟩ := settleMusicUsage_ok h
    cases hpolicy
    exact hwrote.rewrites (Or.inr ⟨⟨rfl, rfl, rfl⟩, Table.key_of_find? hwrote.found, rfl⟩)
  | settleDefaultMusicUsage jobId token =>
    refine rowsChange_of_ok jobId KeepsAmounts.refl atomic_settleDefaultMusicUsage
      fun a db' h => ?_
    obtain ⟨row, ⟨-, -, -, rfl⟩ | ⟨-, hwrote⟩⟩ := settleDefaultMusicUsage_ok h
    · exact Or.inl rfl
    · exact hwrote.rewrites ⟨⟨rfl, rfl, rfl⟩, Or.inr rfl⟩
  | renewLease jobId token ttl =>
    refine rowsChange_of_ok jobId KeepsAmounts.refl (atomic_renewLease ttl)
      fun a db' h => ?_
    obtain ⟨row, hwrote⟩ := renewLease_ok h
    exact hwrote.rewrites ⟨⟨rfl, rfl, rfl⟩, Or.inl rfl⟩
  | rotateLease jobId token owner ttl =>
    refine rowsChange_of_ok jobId KeepsAmounts.refl (atomic_rotateLease owner ttl)
      fun a db' h => ?_
    obtain ⟨row, hwrote⟩ := rotateLease_ok h
    exact hwrote.rewrites ⟨⟨rfl, rfl, rfl⟩, Or.inl rfl⟩
  | maintain m => exact runMaintenance_rowsChange m now db
  | setRun agentRun => exact ⟨rfl, id, (List.map_id _).symm, fun row _ => KeepsAmounts.refl row⟩

/-! ## The budget and the sum of its jobs -/

structure Balanced (policy : MemoirAudioCostPolicy) (db : AudioDb) : Prop where
  total : ∀ runId, db.budget runId = db.reservedCost runId
  cap : ∀ runId, db.budget runId ≤ policy.maxCostPerRun

theorem balanced_empty (policy : MemoirAudioCostPolicy) : Balanced policy {} :=
  ⟨fun _ => rfl, fun _ => le_of_lt policy.max_pos⟩

theorem Balanced.rowsChange {policy : MemoirAudioCostPolicy}
    {P : MemoirAudioJob → MemoirAudioJob → Prop} {db db' : AudioDb} (h : Balanced policy db)
    (hchange : RowsChange P db db') (hP : ∀ row row', P row row' → SameBooking row row') :
    Balanced policy db' := by
  refine ⟨fun runId => ?_, fun runId => ?_⟩
  · rw [hchange.budget, hchange.reservedCost hP, h.total]
  · rw [hchange.budget]
    exact h.cap runId

/-- A booked cost stays below the cap. -/
theorem booked_cap_le {policy : MemoirAudioCostPolicy} {r : MemoirAudioJobReservation}
    {db db' : AudioDb} (h : Booked (some policy) r db db') (hcost : 0 ≤ r.estimatedCost)
    (hcap : ∀ runId, db.budget runId ≤ policy.maxCostPerRun) (runId : String) :
    db'.budget runId ≤ policy.maxCostPerRun := by
  by_cases hrun : runId = r.slot.runId
  · rcases hcost.lt_or_eq with hpos | hzero
    · obtain ⟨p, hp, hle⟩ := h.cap hpos
      cases hp
      rw [hrun]
      exact hle
    · rw [h.budget, if_pos hrun, ← hzero, add_zero]
      exact hcap runId
  · rw [h.budget, if_neg hrun, add_zero]
    exact hcap runId

/-- A reservation adds its cost to the budget and to the row of its slot. -/
theorem Balanced.reserved {policy : MemoirAudioCostPolicy} {r : MemoirAudioJobReservation}
    {now : Time} {db db' : AudioDb} {outcome : ReservationOutcome} (h : Balanced policy db)
    (hcost : 0 ≤ r.estimatedCost) (hres : Reserved (some policy) r now db outcome db') :
    Balanced policy db' := by
  cases hres with
  | reused job hfound hstate => exact h
  | retried job db₁ hfound hstate hbooked =>
    obtain ⟨hrow, hslot⟩ := findJob_some hfound
    have hcap := booked_cap_le hbooked hcost h.cap
    refine ⟨fun runId => ?_, hcap⟩
    rw [AudioDb.budget_putJob, hbooked.budget, h.total]
    have hput := Table.total_put (a := revived job r now job)
      (MemoirAudioJob.reservedFor runId) hrow
    unfold AudioDb.reservedCost
    rw [AudioDb.jobs_putJob, hbooked.jobs]
    by_cases hrun : runId = r.slot.runId
    · have hjob : job.slot.runId = runId := by rw [hslot, hrun]
      have hold : job.reservedFor runId = job.reservedCost := if_pos hjob
      have hnew : (revived job r now job).reservedFor runId
          = job.reservedCost + r.estimatedCost := if_pos hjob
      rw [if_pos hrun]
      linarith
    · have hjob : ¬ job.slot.runId = runId := by
        rw [hslot]
        exact fun he => hrun he.symm
      have hold : job.reservedFor runId = 0 := if_neg hjob
      have hnew : (revived job r now job).reservedFor runId = 0 := if_neg hjob
      rw [if_neg hrun]
      linarith
  | created p db₁ jobs hfound hpolicy hbooked hinsert =>
    have hcap := booked_cap_le hbooked hcost h.cap
    refine ⟨fun runId => ?_, hcap⟩
    show db₁.budget runId = _
    rw [hbooked.budget, h.total]
    unfold AudioDb.reservedCost
    rw [Table.total_insert? _ hinsert, hbooked.jobs]
    unfold MemoirAudioJob.reservedFor
    simp only [newJob, eq_comm (a := r.slot.runId)]

/-! ## What is settled -/

/-- The row of a job covers what is settled, and what has been reserved for it. -/
structure CoveredJob (policy : MemoirAudioCostPolicy) (words seconds : Nat)
    (job : MemoirAudioJob) : Prop where
  settled : job.settledCost.getD 0 ≤ job.reservedCost
  booked : quantizeCeiling (policy.ttsCost words) + quantizeCeiling (policy.musicCost seconds)
    ≤ job.reservedCost

structure CoveredBooks (policy : MemoirAudioCostPolicy) (s : AudioBooks) : Prop where
  jobs : ∀ job ∈ s.db.jobs.rows,
    CoveredJob policy (s.textWords job.jobId) (s.musicSeconds job.jobId) job
  usages : ∀ u ∈ s.usages, s.db.jobs.find? u.jobId ≠ none

theorem ttsCost_nonneg (policy : MemoirAudioCostPolicy) (words : Nat) :
    0 ≤ policy.ttsCost words := by
  have := policy.tts_nonneg
  unfold MemoirAudioCostPolicy.ttsCost
  positivity

theorem musicCost_nonneg (policy : MemoirAudioCostPolicy) (seconds : Nat) :
    0 ≤ policy.musicCost seconds := by
  have := policy.music_nonneg
  unfold MemoirAudioCostPolicy.musicCost
  positivity

theorem ttsCost_mono (policy : MemoirAudioCostPolicy) {a b : Int} (h : a ≤ b) :
    policy.ttsCost a ≤ policy.ttsCost b := by
  have := policy.tts_nonneg
  unfold MemoirAudioCostPolicy.ttsCost
  gcongr

theorem musicCost_mono (policy : MemoirAudioCostPolicy) {a b : Int} (h : a ≤ b) :
    policy.musicCost a ≤ policy.musicCost b := by
  have := policy.music_nonneg
  unfold MemoirAudioCostPolicy.musicCost
  gcongr

/-- Rounding up in two parts costs no less. -/
theorem ttsCost_add_le (policy : MemoirAudioCostPolicy) (a b : Nat) :
    quantizeCeiling (policy.ttsCost (a + b : Nat))
      ≤ quantizeCeiling (policy.ttsCost a) + quantizeCeiling (policy.ttsCost b) := by
  have hsum : policy.ttsCost (a + b : Nat) = policy.ttsCost a + policy.ttsCost b := by
    unfold MemoirAudioCostPolicy.ttsCost
    push_cast
    ring
  rw [hsum]
  exact quantizeCeiling_add_le _ _

theorem musicCost_add_le (policy : MemoirAudioCostPolicy) (a b : Nat) :
    quantizeCeiling (policy.musicCost (a + b : Nat))
      ≤ quantizeCeiling (policy.musicCost a) + quantizeCeiling (policy.musicCost b) := by
  have hsum : policy.musicCost (a + b : Nat) = policy.musicCost a + policy.musicCost b := by
    unfold MemoirAudioCostPolicy.musicCost
    push_cast
    ring
  rw [hsum]
  exact quantizeCeiling_add_le _ _

theorem CoveredJob.nonneg {policy : MemoirAudioCostPolicy} {words seconds : Nat}
    {job : MemoirAudioJob} (h : CoveredJob policy words seconds job) : 0 ≤ job.reservedCost :=
  le_trans (add_nonneg (quantizeCeiling_nonneg (ttsCost_nonneg policy words))
    (quantizeCeiling_nonneg (musicCost_nonneg policy seconds))) h.booked

theorem CoveredJob.keeps {policy : MemoirAudioCostPolicy} {words seconds : Nat}
    {row row' : MemoirAudioJob} (h : CoveredJob policy words seconds row)
    (hkeeps : KeepsAmounts row row') : CoveredJob policy words seconds row' := by
  refine ⟨?_, ?_⟩
  · rw [hkeeps.booking.reserved]
    rcases hkeeps.settled with hsame | hzero
    · rw [hsame]
      exact h.settled
    · rw [hzero]
      exact h.nonneg
  · rw [hkeeps.booking.reserved]
    exact h.booked

/-- A settlement below what was reserved is covered. -/
theorem CoveredJob.settles {policy : MemoirAudioCostPolicy} {words seconds : Nat}
    {row row' : MemoirAudioJob} {cost : Rat} (h : CoveredJob policy words seconds row)
    (hbooking : SameBooking row row') (hsettled : row'.settledCost = some cost)
    (hcost : cost ≤ quantizeCeiling (policy.ttsCost words) ∨
      cost ≤ quantizeCeiling (policy.musicCost seconds)) : CoveredJob policy words seconds row' := by
  have htts := quantizeCeiling_nonneg (ttsCost_nonneg policy words)
  have hmusic := quantizeCeiling_nonneg (musicCost_nonneg policy seconds)
  have hbooked := h.booked
  refine ⟨?_, ?_⟩
  · rw [hsettled, hbooking.reserved]
    show cost ≤ row.reservedCost
    rcases hcost with hle | hle <;> linarith
  · rw [hbooking.reserved]
    exact hbooked

/-- Another reservation of the same job adds its usage and its cost. -/
theorem CoveredJob.add {policy : MemoirAudioCostPolicy} {words seconds : Nat} {usage : Usage}
    {row row' : MemoirAudioJob} {cost : Rat}
    (h : quantizeCeiling (policy.ttsCost words) + quantizeCeiling (policy.musicCost seconds)
      ≤ row.reservedCost)
    (hsettled : row'.settledCost.getD 0 ≤ row.reservedCost) (hpos : 0 ≤ cost)
    (hreserved : row'.reservedCost = row.reservedCost + cost)
    (hcost : usage.estimate policy ≤ cost) :
    CoveredJob policy (words + usage.textWords) (seconds + usage.musicSeconds) row' := by
  have htts := ttsCost_add_le policy words usage.textWords
  have hmusic := musicCost_add_le policy seconds usage.musicSeconds
  unfold Usage.estimate at hcost
  refine ⟨?_, ?_⟩
  · rw [hreserved]
    linarith
  · rw [hreserved]
    linarith

theorem textWords_append (s : AudioBooks) (db : AudioDb) (jobId id : String) (usage : Usage) :
    ({ db, usages := s.usages ++ [⟨jobId, usage⟩] } : AudioBooks).textWords id
      = s.textWords id + if id = jobId then usage.textWords else 0 := by
  unfold AudioBooks.textWords
  simp only [List.filter_append, List.map_append, List.sum_append]
  by_cases h : id = jobId
  · simp [h]
  · simp [h, eq_comm (a := jobId)]

theorem musicSeconds_append (s : AudioBooks) (db : AudioDb) (jobId id : String) (usage : Usage) :
    ({ db, usages := s.usages ++ [⟨jobId, usage⟩] } : AudioBooks).musicSeconds id
      = s.musicSeconds id + if id = jobId then usage.musicSeconds else 0 := by
  unfold AudioBooks.musicSeconds
  simp only [List.filter_append, List.map_append, List.sum_append]
  by_cases h : id = jobId
  · simp [h]
  · simp [h, eq_comm (a := jobId)]

/-- Nothing has been reserved for a job that has no row. -/
theorem CoveredBooks.fresh {policy : MemoirAudioCostPolicy} {s : AudioBooks} (h : CoveredBooks policy s)
    {jobId : String} (hfree : s.db.jobs.find? jobId = none) :
    s.textWords jobId = 0 ∧ s.musicSeconds jobId = 0 := by
  have hnone : s.usages.filter (fun u => decide (u.jobId = jobId)) = [] := by
    refine List.filter_eq_nil_iff.mpr fun u hu => ?_
    have hrow := h.usages u hu
    simp only [decide_eq_true_eq]
    rintro rfl
    exact hrow hfree
  unfold AudioBooks.textWords AudioBooks.musicSeconds
  rw [hnone]
  exact ⟨rfl, rfl⟩

theorem CoveredBooks.rowsChange {policy : MemoirAudioCostPolicy} {s : AudioBooks}
    {P : MemoirAudioJob → MemoirAudioJob → Prop} {db' : AudioDb} (h : CoveredBooks policy s)
    (hchange : RowsChange P s.db db') (hbooking : ∀ row row', P row row' → SameBooking row row')
    (hP : ∀ row ∈ s.db.jobs.rows, ∀ row', P row row' →
      CoveredJob policy (s.textWords row.jobId) (s.musicSeconds row.jobId) row →
      CoveredJob policy (s.textWords row.jobId) (s.musicSeconds row.jobId) row') :
    CoveredBooks policy { s with db := db' } := by
  refine ⟨fun row' hmem => ?_, fun u hu => ?_⟩
  · obtain ⟨row, hrow, hchanged⟩ := hchange.mem hmem
    have hcovered := hP row hrow row' hchanged (h.jobs row hrow)
    rw [← (hbooking row row' hchanged).jobId] at hcovered
    exact hcovered
  · obtain ⟨row, hfind⟩ := Option.ne_none_iff_exists'.mp (h.usages u hu)
    obtain ⟨f, hrows, hf⟩ := hchange.rows
    obtain ⟨hmem, hkey⟩ := Table.find?_eq_some.mp hfind
    have hmem' : f row ∈ db'.jobs.rows := by
      rw [hrows]
      exact List.mem_map_of_mem hmem
    have hfind' := Table.find?_of_mem hmem'
    rw [(hbooking _ _ (hf row hmem)).jobId, hkey] at hfind'
    show db'.jobs.find? u.jobId ≠ none
    rw [hfind']
    exact Option.some_ne_none _

theorem CoveredBooks.retried {policy : MemoirAudioCostPolicy} {s : AudioBooks} {db' : AudioDb}
    {row row' : MemoirAudioJob} {usage : Usage} {cost : Rat} (h : CoveredBooks policy s)
    (hfind : s.db.jobs.find? row.jobId = some row) (hid : row'.jobId = row.jobId)
    (hsettled : row'.settledCost = row.settledCost) (hpos : 0 ≤ cost)
    (hreserved : row'.reservedCost = row.reservedCost + cost)
    (hcost : usage.estimate policy ≤ cost) (hjobs : db'.jobs = s.db.jobs.put row') :
    CoveredBooks policy { db := db', usages := s.usages ++ [⟨row.jobId, usage⟩] } := by
  refine ⟨fun job hmem => ?_, fun u hu => ?_⟩
  · rw [textWords_append, musicSeconds_append]
    change job ∈ db'.jobs.rows at hmem
    rw [hjobs] at hmem
    rcases Table.mem_put.mp hmem with ⟨rfl, -⟩ | ⟨hold, hne⟩
    · have hrow := h.jobs row (Table.mem_of_find? hfind)
      rw [if_pos hid, if_pos hid, hid]
      refine CoveredJob.add hrow.booked ?_ hpos hreserved hcost
      rw [hsettled]
      exact hrow.settled
    · rw [hid] at hne
      rw [if_neg hne, if_neg hne]
      exact h.jobs job hold
  · show db'.jobs.find? u.jobId ≠ none
    rw [hjobs, Table.find?_put, hid]
    rcases List.mem_append.mp hu with hold | hnew
    · split
      next he =>
        rw [he, hfind]
        exact Option.some_ne_none _
      · exact h.usages u hold
    · rw [List.mem_singleton.mp hnew, if_pos rfl, hfind]
      exact Option.some_ne_none _

theorem CoveredBooks.created {policy : MemoirAudioCostPolicy} {s : AudioBooks} {db' : AudioDb}
    {job : MemoirAudioJob} {usage : Usage} (h : CoveredBooks policy s)
    (hinsert : s.db.jobs.insert? job = some db'.jobs) (hsettled : job.settledCost = none)
    (hpos : 0 ≤ job.reservedCost) (hcost : usage.estimate policy ≤ job.reservedCost) :
    CoveredBooks policy { db := db', usages := s.usages ++ [⟨job.jobId, usage⟩] } := by
  obtain ⟨hfree, hrows⟩ := Table.insert?_eq_some.mp hinsert
  refine ⟨fun row hmem => ?_, fun u hu => ?_⟩
  · rw [textWords_append, musicSeconds_append]
    change row ∈ db'.jobs.rows at hmem
    rw [hrows] at hmem
    rcases List.mem_append.mp hmem with hold | hnew
    · have hne : row.jobId ≠ job.jobId := fun he =>
        Table.find?_eq_none.mp hfree row hold he
      rw [if_neg hne, if_neg hne]
      exact h.jobs row hold
    · rw [List.mem_singleton.mp hnew, if_pos rfl, if_pos rfl]
      obtain ⟨hwords, hseconds⟩ := h.fresh hfree
      rw [hwords, hseconds]
      unfold Usage.estimate at hcost
      refine ⟨?_, ?_⟩
      · rw [hsettled]
        exact hpos
      · simpa using hcost
  · show db'.jobs.find? u.jobId ≠ none
    rw [Table.find?_insert? hinsert]
    rcases List.mem_append.mp hu with hold | hnew
    · split
      · exact Option.some_ne_none _
      · exact h.usages u hold
    · rw [List.mem_singleton.mp hnew, if_pos rfl]
      exact Option.some_ne_none _

theorem validateReservation_cost {r : MemoirAudioJobReservation}
    (h : validateReservation r = .ok ()) : 0 ≤ r.estimatedCost := by
  obtain ⟨_, -, h⟩ := bind_ok.mp h
  obtain ⟨_, hcost, -⟩ := bind_ok.mp h
  exact require_ok.mp hcost

/-! ## The books of a run -/

theorem balanced_step (policy : MemoirAudioCostPolicy) (s : AudioBooks) (e : Time × AudioOp)
    (h : Balanced policy s.db) : Balanced policy (s.step policy e).db := by
  obtain ⟨now, op⟩ := e
  by_cases hop : ∃ r usage, op = .reserve r usage
  · obtain ⟨r, usage, rfl⟩ := hop
    show Balanced policy (reserveJob (some policy) r now s.db).2
    rcases hx : reserveJob (some policy) r now s.db with ⟨error | outcome, db'⟩
    · rw [atomic_reserveJob _ _ _ _ _ hx]
      exact h
    · obtain ⟨hvalid, -, hres⟩ := reserveJob_ok hx
      exact h.reserved (validateReservation_cost hvalid) hres
  · have hop : ∀ r usage, op ≠ .reserve r usage := fun r usage he => hop ⟨r, usage, he⟩
    exact h.rowsChange (perform_rowsChange policy now s.db op hop) 
      fun _ _ => AudioOp.Change.sameBooking

/-- What an operation leaves of a row is covered, when no more is billed than
was reserved. -/
theorem change_covered {policy : MemoirAudioCostPolicy} {s : AudioBooks} {now : Time}
    {op : AudioOp} (hbilled : Billed policy s (now, op)) {row row' : MemoirAudioJob}
    (hchange : op.Change policy row row')
    (h : CoveredJob policy (s.textWords row.jobId) (s.musicSeconds row.jobId) row) :
    CoveredJob policy (s.textWords row.jobId) (s.musicSeconds row.jobId) row' := by
  cases op with
  | settleTtsUsage jobId token words =>
    rcases hchange with hkeeps | ⟨hbooking, hid, hsettled⟩
    · exact h.keeps hkeeps
    · refine h.settles hbooking hsettled (Or.inl ?_)
      have hwords : words ≤ s.textWords row.jobId := hid ▸ hbilled
      exact le_trans (quantizeHalfUp_le _) (quantizeCeiling_mono (ttsCost_mono policy hwords))
  | settleMusicUsage jobId token seconds =>
    rcases hchange with hkeeps | ⟨hbooking, hid, hsettled⟩
    · exact h.keeps hkeeps
    · refine h.settles hbooking hsettled (Or.inr ?_)
      have hseconds : seconds ≤ s.musicSeconds row.jobId := hid ▸ hbilled
      exact le_trans (quantizeHalfUp_le _)
        (quantizeCeiling_mono (musicCost_mono policy hseconds))
  | _ => exact h.keeps hchange

theorem covered_step (policy : MemoirAudioCostPolicy) (s : AudioBooks) (e : Time × AudioOp)
    (h : CoveredBooks policy s) (hbilled : Billed policy s e) : CoveredBooks policy (s.step policy e) := by
  obtain ⟨now, op⟩ := e
  by_cases hop : ∃ r usage, op = .reserve r usage
  · obtain ⟨r, usage, rfl⟩ := hop
    show CoveredBooks policy ⟨(reserveJob (some policy) r now s.db).2,
      s.usages ++ reservedUsage usage (reserveJob (some policy) r now s.db).1⟩
    rcases hx : reserveJob (some policy) r now s.db with ⟨error | outcome, db'⟩
    · rw [atomic_reserveJob _ _ _ _ _ hx]
      show CoveredBooks policy ⟨s.db, s.usages ++ []⟩
      rw [List.append_nil]
      exact h
    · obtain ⟨hvalid, -, hres⟩ := reserveJob_ok hx
      have hpos := validateReservation_cost hvalid
      cases hres with
      | reused job hfound hstate =>
        show CoveredBooks policy ⟨s.db, s.usages ++ []⟩
        rw [List.append_nil]
        exact h
      | retried job db₁ hfound hstate hbooked =>
        refine @CoveredBooks.retried policy s _ job (revived job r now job) usage _ h
          (findJob_some hfound).1 rfl rfl hpos rfl hbilled ?_
        rw [AudioDb.jobs_putJob, hbooked.jobs]
      | created p db₁ jobs hfound hpolicy hbooked hinsert =>
        rw [hbooked.jobs] at hinsert
        exact @CoveredBooks.created policy s _ (newJob p r now) usage h hinsert rfl hpos hbilled
  · have hop : ∀ r usage, op ≠ .reserve r usage := fun r usage he => hop ⟨r, usage, he⟩
    have hstep : s.step policy (now, op) = { s with db := op.perform policy now s.db } := by
      cases op with
      | reserve r usage => exact absurd rfl (hop r usage)
      | _ => rfl
    rw [hstep]
    exact h.rowsChange (perform_rowsChange policy now s.db op hop)
      (fun _ _ => AudioOp.Change.sameBooking)
      fun row _ row' hchange hrow => change_covered hbilled hchange hrow

theorem covered_empty (policy : MemoirAudioCostPolicy) : CoveredBooks policy {} :=
  ⟨fun _ hmem => (nomatch hmem), fun _ hmem => (nomatch hmem)⟩

/-- What is settled for a run is within its budget, when its jobs are covered. -/
theorem CoveredBooks.settledCost_le {policy : MemoirAudioCostPolicy} {s : AudioBooks}
    (h : CoveredBooks policy s) (hbalanced : Balanced policy s.db) (runId : String) :
    s.db.settledCost runId ≤ s.db.budget runId := by
  rw [hbalanced.total]
  refine Table.total_le_total fun job hjob => ?_
  unfold MemoirAudioJob.settledFor MemoirAudioJob.reservedFor
  split
  · exact (h.jobs job hjob).settled
  · exact le_refl 0

/-- **The audio budget is conserved.** After every sequence of operations
the budget of a run is the sum of what its jobs have reserved, and within
the cap; a reservation that is refused changes no row; and while nothing is
billed beyond what was reserved, no more is settled than is in the budget. -/
theorem audio_budget_conserved (policy : MemoirAudioCostPolicy) (es : List (Time × AudioOp)) :
    (∀ runId, (run (AudioBooks.step policy) {} es).db.budget runId
        = (run (AudioBooks.step policy) {} es).db.reservedCost runId ∧
      (run (AudioBooks.step policy) {} es).db.budget runId ≤ policy.maxCostPerRun) ∧
    (∀ r now e db', reserveJob (some policy) r now (run (AudioBooks.step policy) {} es).db
        = (.error e, db') → db' = (run (AudioBooks.step policy) {} es).db) ∧
    (Along (AudioBooks.step policy) (Billed policy) {} es →
      ∀ runId, (run (AudioBooks.step policy) {} es).db.settledCost runId
        ≤ (run (AudioBooks.step policy) {} es).db.budget runId) := by
  have hbalanced : Balanced policy (run (AudioBooks.step policy) {} es).db :=
    run_inv (I := fun s : AudioBooks => Balanced policy s.db) (balanced_step policy) es {}
      (balanced_empty policy)
  refine ⟨fun runId => ⟨hbalanced.total runId, hbalanced.cap runId⟩,
    fun r now e db' h => atomic_reserveJob _ _ _ _ _ h, fun hbilled => ?_⟩
  have hcovered := along_inv (I := CoveredBooks policy) (covered_step policy) es {}
    (covered_empty policy) hbilled
  exact hcovered.settledCost_le hbalanced

namespace BudgetExample

/-- A run with one segment of 150 characters at 0.3 a thousand: the first
attempt is turned away, the second is billed for 149 words. -/
def policy : MemoirAudioCostPolicy :=
  ⟨"CNY", 3 / 10, 1 / 100, 1, by decide, by decide +kernel, by decide +kernel, by decide +kernel⟩

def slot : AudioSlot := ⟨"run-1", 1, "1.0.8", .segment, "scene-1", 0, "digest"⟩

def reservation : MemoirAudioJobReservation :=
  { jobId := "audio-1", businessId := "pair-1", slot, estimatedCost := 45 / 1000,
    leaseOwner := .audio "run-1" 1 }

def agentRun : AgentRun :=
  { runId := "run-1", agentId := "memoir", agentVersion := "1.0.8", packageDigest := "d",
    callerId := "c", tenantId := "t" }

def operations : List (Time × AudioOp) :=
  [(0, .setRun agentRun), (1, .reserve reservation ⟨150, 0⟩), (2, .markSubmitting "audio-1" 1),
    (3, .markFailed "audio-1" 1 "TTS_HTTP_429"), (4, .reserve reservation ⟨150, 0⟩),
    (5, .markSubmitting "audio-1" 2), (6, .markSubmitted "audio-1" 2 none),
    (7, .settleTtsUsage "audio-1" 2 149)]

end BudgetExample

open BudgetExample in
theorem audio_budget_conserved_retry :
    (run (AudioBooks.step policy) {} operations).db.budget "run-1" = 9 / 100 ∧
      (run (AudioBooks.step policy) {} operations).db.settledCost "run-1" = 447 / 10000 ∧
      (run (AudioBooks.step policy) {} operations).db.settledCost "run-1"
        ≤ (run (AudioBooks.step policy) {} operations).db.budget "run-1" :=
  ⟨by decide +kernel, by decide +kernel,
    (audio_budget_conserved policy operations).2.2 (by decide +kernel) "run-1"⟩

end AgentRuntime
