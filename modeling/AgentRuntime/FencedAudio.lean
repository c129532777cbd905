import AgentRuntime.AudioBudget
import AgentRuntime.AudioSessions
import AgentRuntime.Lib.Versioned

/-!
# Fenced writes of the audio ledger

Which updates of a session on the audio ledger are `Lawful`: the token grows
with every change of ownership, an old token or an old execution attempt
writes nothing, no reservation is lost, nothing is published that was not
uploaded, and nothing in flight is marked cleaned.

A write under a lease compares the token. The retry of a reservation compares
the state alone and takes token, attempt and cost from its copy of the row,
and `mark_cleaned` compares nothing. Where a copy can be out of date, the
law can be broken; `Fresh` says what the copies have to be, and
`audio_writes_fenced_iff` that this is all there is to it. The invariant is
that every session holds copies that the rows have moved on from (`Holding`).
-/

namespace AgentRuntime

open Keyed Interleave Runs Versioned MemoirAudioJobsService

namespace AudioSessions

/-! ## What an update matches -/

/-- `_reserve_budget` accepts. -/
def BudgetAllows (policy : Option MemoirAudioCostPolicy) (r : MemoirAudioJobReservation)
    (db : AudioDb) : Prop :=
  ∃ db', reserveBudget policy r db = (.ok (), db')

/-- The condition of an update, for a row. -/
def Matches (db : AudioDb) (row : MemoirAudioJob) : Draft → Prop
  | .leased _ w leaseToken read _ =>
    row.jobId = read.jobId ∧ row.leaseToken = leaseToken ∧ row.state ∈ w.states
  | .retry policy r read _ =>
    row.jobId = read.jobId ∧ row.state = read.state ∧ BudgetAllows policy r db
  | .clean read _ => row.jobId = read.jobId
  | .failKeyed cutoff => AbandonedKeyed cutoff row
  | .failKeyless cutoff => AbandonedKeyless cutoff row
  | .insert .. | .changeRun .. | .done => False

/-- The row it makes of one that matches. -/
def updated (row : MemoirAudioJob) : Draft → MemoirAudioJob
  | .leased policy w _ _ now => written (fun row => w.values policy now row) now row
  | .retry _ r read now => revived read r now row
  | .clean _ now => { row with state := .cleaned, updatedAt := now }
  | .failKeyed _ => abandon row
  | .failKeyless _ => { abandon row with settledCost := some 0 }
  | .insert .. | .changeRun .. | .done => row

/-- The condition of an insertion. -/
def Inserts (db : AudioDb) : Draft → Prop
  | .insert policy r _ _ =>
    policy.isSome ∧ findJob r.slot db = none ∧ db.jobs.find? r.jobId = none ∧
      BudgetAllows policy r db
  | _ => False

/-! ## The law -/

/-- The token a session writes with; a retry has the one of its copy. -/
def tokenOf : Draft → Option Nat
  | .leased _ _ leaseToken _ _ => some leaseToken
  | .retry _ _ read _ => some read.leaseToken
  | _ => none

/-- A session that becomes the owner of the job. -/
def TakesOver : Draft → Prop
  | .leased _ (.rotateLease _ _) _ _ _ | .retry .. => True
  | _ => False

/-- What a session reserves. -/
def reservation : Draft → Rat
  | .retry _ r _ _ | .insert _ r _ _ => r.estimatedCost
  | _ => 0

/-- The owner a session writes as, and its run. -/
def fence : Draft → Option (String × LeaseOwner)
  | .leased _ w _ read _ => some (read.slot.runId, w.fenceOwner.getD read.leaseOwner)
  | .retry _ r _ _ | .insert _ r _ _ => some (r.slot.runId, r.leaseOwner)
  | _ => none

/-- The session works for this execution attempt of the run. -/
def WorksFor (c : Draft) (runId : String) (attempt : Nat) : Prop :=
  ∃ owner, fence c = some (runId, owner) ∧ owner.attemptOf runId = some attempt

/-- The run has gone on to a later execution attempt. -/
def Outdated (db : AudioDb) (c : Draft) : Prop :=
  ∃ runId attempt run, WorksFor c runId attempt ∧ db.runs.find? runId = some run ∧
    attempt < currentAttempt run

/-- What a session may make of a row. -/
structure LawfulRow (db : AudioDb) (c : Draft) (row row' : MemoirAudioJob) : Prop where
  monotone : row.leaseToken ≤ row'.leaseToken
  ownership : row'.leaseOwner ≠ row.leaseOwner ∨ (TakesOver c ∧ row' ≠ row) →
    row.leaseToken < row'.leaseToken
  token : ∀ t ∈ tokenOf c, t < row.leaseToken → row' = row
  attempt : Outdated db c → row' = row
  reserved : row' ≠ row → row'.reservedCost = row.reservedCost + reservation c
  published : row'.state = .published → row.state = .published ∨ row.state = .uploaded
  inFlight : row.state ∈ activeStates → row'.state ≠ .cleaned

/-- What the update of a session may do to the ledger. -/
structure Lawful (db : AudioDb) (c : Draft) : Prop where
  rows : ∀ id row, db.jobs.find? id = some row →
    ∃ row', (exec db c).1.jobs.find? id = some row' ∧ LawfulRow db c row row'
  created : ∀ id row', db.jobs.find? id = none → (exec db c).1.jobs.find? id = some row' →
    row'.state = .reserved ∧ row'.reservedCost = reservation c ∧ ¬ Outdated db c

/-! ## The condition -/

/-- What the copy of a session has to be when it writes: a retry writes the
row it read, and the row that is marked cleaned has not been taken over and
is still worked on. -/
def CopyHolds (db : AudioDb) (c : Draft) : Prop :=
  match c with
  | .retry _ _ read _ => ∀ row, db.jobs.find? read.jobId = some row → Matches db row c →
      row.leaseToken = read.leaseToken
  | .clean read _ => ∀ row, db.jobs.find? read.jobId = some row →
      row.leaseToken ≠ read.leaseToken → row.state ∉ activeStates
  | _ => True

/-- There is a row the update changes, or it inserts one. -/
def Changes (db : AudioDb) (c : Draft) : Prop :=
  (∃ id row, db.jobs.find? id = some row ∧ Matches db row c ∧ updated row c ≠ row) ∨
    Inserts db c

/-- A session that changes something works for the current execution attempt. -/
def AttemptHolds (db : AudioDb) (c : Draft) : Prop :=
  Changes db c → ∀ runId attempt run, WorksFor c runId attempt →
    db.runs.find? runId = some run → currentAttempt run = attempt

def Fresh (db : AudioDb) (c : Draft) : Prop := CopyHolds db c ∧ AttemptHolds db c

/-! ## What sessions know -/

/-- What cannot change while the token is the same. -/
def SameOwner (a b : MemoirAudioJob) : Prop :=
  b.reservedCost = a.reservedCost ∧ (a.state ∉ activeStates → b.state ∉ activeStates)

/-- The row is what became of the copy. -/
def LaterJob (a b : MemoirAudioJob) : Prop := Later MemoirAudioJob.leaseToken SameOwner a b

theorem LaterJob.refl (a : MemoirAudioJob) : LaterJob a a :=
  Later.refl (fun _ => ⟨rfl, id⟩) a

theorem LaterJob.trans {a b c : MemoirAudioJob} (hab : LaterJob a b) (hbc : LaterJob b c) :
    LaterJob a c :=
  Later.trans (fun hab hbc => ⟨hbc.1.trans hab.1, fun h => hbc.2 (hab.2 h)⟩) hab hbc

/-- The execution attempt does not go back. -/
def LaterRun (a b : AgentRun) : Prop := currentAttempt a ≤ currentAttempt b

/-- The ledger after some updates. -/
structure LaterDb (db db' : AudioDb) : Prop where
  jobs : Evolves LaterJob db.jobs db'.jobs
  runs : Evolves LaterRun db.runs db'.runs

theorem LaterDb.refl (db : AudioDb) : LaterDb db db :=
  ⟨Evolves.refl LaterJob.refl _, Evolves.refl (fun run => Nat.le_refl (currentAttempt run)) _⟩

/-- The copy of a session, as it was allowed to make it. -/
def CopyRead (db : AudioDb) : Draft → Prop
  | .retry _ r read _ =>
    0 ≤ r.estimatedCost ∧ read.state ∈ retryStates ∧ Seen LaterJob db.jobs read
  | .clean read _ => read.state ∈ orphanStates ∧ Seen LaterJob db.jobs read
  | .insert _ r _ _ => 0 ≤ r.estimatedCost
  | _ => True

/-- What a session holds: a copy, and the execution attempt of its run. -/
structure Holding (db : AudioDb) (c : Draft) : Prop where
  copy : CopyRead db c
  attempt : ∀ runId attempt, WorksFor c runId attempt →
    ∃ run, db.runs.find? runId = some run ∧ attempt ≤ currentAttempt run

theorem Holding.later {db db' : AudioDb} {c : Draft} (h : Holding db c) (hdb : LaterDb db db') :
    Holding db' c where
  copy := by
    have hcopy := h.copy
    cases c with
    | retry policy r read now =>
      exact ⟨hcopy.1, hcopy.2.1, hcopy.2.2.evolves LaterJob.trans hdb.jobs⟩
    | clean read now => exact ⟨hcopy.1, hcopy.2.evolves LaterJob.trans hdb.jobs⟩
    | insert policy r now again => exact hcopy
    | _ => trivial
  attempt runId attempt hworks := by
    obtain ⟨run, hfind, hle⟩ := h.attempt runId attempt hworks
    obtain ⟨run', hfind', hrun⟩ := hdb.runs _ run hfind
    exact ⟨run', hfind', hle.trans hrun⟩

/-! ## What an update does -/

section

variable {db : AudioDb} {policy : Option MemoirAudioCostPolicy} {r : MemoirAudioJobReservation}
  {read row : MemoirAudioJob} {now : Time} {id : String}

/-- The retry of a reservation: the budget, then the update of the row. -/
theorem reserveExisting_retry (hstate : read.state ∈ retryStates) :
    (reserveExisting policy read r now db).2 = match reserveBudget policy r db with
      | (.error _, _) => db
      | (.ok _, db₁) =>
        match db₁.jobs.find? read.jobId with
        | none => db
        | some row =>
          if row.state = read.state then db₁.putJob (revived read r now row) else db := by
  have hlive : read.state ≠ .submissionUnknown ∧ read.state ∉ successStates ∧
      read.state ∉ activeStates := by
    cases h : read.state <;> simp [h, retryStates, successStates, activeStates] at hstate ⊢
  unfold reserveExisting
  rw [if_neg hlive.1, if_neg hlive.2.1, if_neg hlive.2.2]
  show (AudioM.savepoint (AudioM.bind _ _) db).2 = _
  unfold AudioM.savepoint AudioM.bind
  rcases reserveBudget policy r db with ⟨e | u, db₁⟩
  · rfl
  · dsimp only
    cases db₁.jobs.find? read.jobId with
    | none => rfl
    | some row =>
      dsimp only
      by_cases hsame : row.state = read.state
      · rw [if_pos hsame, if_pos hsame]
      · rw [if_neg hsame, if_neg hsame]

/-- A row that an update matches becomes what it makes of it. -/
theorem exec_matches {c : Draft} (hcopy : CopyRead db c) (hrow : db.jobs.find? id = some row)
    (hmatch : Matches db row c) : (exec db c).1.jobs.find? id = some (updated row c) := by
  have hid : row.jobId = id := Table.key_of_find? hrow
  cases c with
  | leased policy w leaseToken read now =>
    obtain ⟨hread, htoken, hstate⟩ := hmatch
    have hfind : db.jobs.find? read.jobId = some row := by rw [← hread, hid]; exact hrow
    unfold exec LeasedWrite.update casUpdate
    dsimp only
    rw [hfind]
    dsimp only
    rw [if_pos ⟨htoken, hstate⟩, ← hid]
    exact Table.find?_put_self (a := updated row (.leased policy w leaseToken read now))
      (hid ▸ hrow)
  | retry policy r read now =>
    obtain ⟨hread, hstate, db₁, hbudget⟩ := hmatch
    have hbooked := reserveBudget_ok hcopy.1 hbudget
    have hfind : db₁.jobs.find? read.jobId = some row := by
      rw [hbooked.jobs, ← hread, hid]
      exact hrow
    show (reserveExisting policy read r now db).2.jobs.find? id = _
    rw [reserveExisting_retry hcopy.2.1, hbudget]
    dsimp only
    rw [hfind]
    dsimp only
    rw [if_pos hstate, ← hid]
    exact Table.find?_put_self (a := revived read r now row) (hread ▸ hfind)
  | clean read now =>
    have hfind : db.jobs.find? read.jobId = some row := by
      rw [← show row.jobId = read.jobId from hmatch, hid]
      exact hrow
    show (flushCleaned read now db).jobs.find? id = _
    unfold flushCleaned
    rw [hfind]
    dsimp only
    rw [← hid]
    exact Table.find?_put_self (a := updated row (.clean read now)) (hid ▸ hrow)
  | failKeyed cutoff =>
    show (failAbandonedKeyedJobs cutoff db).jobs.find? id = _
    unfold failAbandonedKeyedJobs
    dsimp only
    rw [Table.find?_mapRows, hrow]
    exact congrArg some (if_pos hmatch)
  | failKeyless cutoff =>
    show (failAbandonedKeylessDefaultJobs cutoff db).jobs.find? id = _
    unfold failAbandonedKeylessDefaultJobs
    dsimp only
    rw [Table.find?_mapRows, hrow]
    exact congrArg some (if_pos hmatch)
  | insert policy r now again => exact hmatch.elim
  | changeRun runId change => exact hmatch.elim
  | done => exact hmatch.elim

theorem found_once {target : MemoirAudioJob} {k : String} (hrow : db.jobs.find? id = some row)
    (hfind : db.jobs.find? k = some target) (he : id = target.jobId) : target = row := by
  rw [← Table.key_of_find? hfind, ← he, hrow] at hfind
  injection hfind with hsame
  exact hsame.symm

/-- A row that an update does not match stays as it is. -/
theorem exec_spares {c : Draft} (hcopy : CopyRead db c) (hinsert : ∀ p r n a, c ≠ .insert p r n a)
    (hrow : db.jobs.find? id = some row) (hmatch : ¬ Matches db row c) :
    (exec db c).1.jobs.find? id = some row := by
  have hid : row.jobId = id := Table.key_of_find? hrow
  cases c with
  | leased policy w leaseToken read now =>
    show (w.update policy leaseToken now read db).2.jobs.find? id = _
    unfold LeasedWrite.update casUpdate
    cases hfind : db.jobs.find? read.jobId with
    | none => exact hrow
    | some target =>
      dsimp only
      split
      next hcond =>
        have hne : id ≠ target.jobId := fun he => by
          have hsame := found_once hrow hfind he
          exact hmatch ⟨hsame ▸ Table.key_of_find? hfind, hsame ▸ hcond.1, hsame ▸ hcond.2⟩
        exact (Table.find?_put_ne (a := updated target (.leased policy w leaseToken read now))
          hne).trans hrow
      · exact hrow
  | retry policy r read now =>
    show (reserveExisting policy read r now db).2.jobs.find? id = _
    rw [reserveExisting_retry hcopy.2.1]
    rcases hbudget : reserveBudget policy r db with ⟨e | u, db₁⟩
    · exact hrow
    · dsimp only
      have hbooked := reserveBudget_ok hcopy.1 hbudget
      rw [hbooked.jobs]
      cases hfind : db.jobs.find? read.jobId with
      | none => exact hrow
      | some target =>
        dsimp only
        split
        next hstate =>
          have hne : id ≠ target.jobId := fun he => by
            have hsame := found_once hrow hfind he
            exact hmatch ⟨hsame ▸ Table.key_of_find? hfind, hsame ▸ hstate, db₁, hbudget⟩
          rw [← hbooked.jobs] at hrow
          exact (Table.find?_put_ne (a := revived read r now target) hne).trans hrow
        · exact hrow
  | clean read now =>
    show (flushCleaned read now db).jobs.find? id = _
    unfold flushCleaned
    cases hfind : db.jobs.find? read.jobId with
    | none => exact hrow
    | some target =>
      have hne : id ≠ target.jobId := fun he =>
        hmatch (hid.trans (he.trans (Table.key_of_find? hfind)))
      exact (Table.find?_put_ne (a := updated target (.clean read now)) hne).trans hrow
  | failKeyed cutoff =>
    show (failAbandonedKeyedJobs cutoff db).jobs.find? id = _
    unfold failAbandonedKeyedJobs
    dsimp only
    rw [Table.find?_mapRows, hrow]
    exact congrArg some (if_neg hmatch)
  | failKeyless cutoff =>
    show (failAbandonedKeylessDefaultJobs cutoff db).jobs.find? id = _
    unfold failAbandonedKeylessDefaultJobs
    dsimp only
    rw [Table.find?_mapRows, hrow]
    exact congrArg some (if_neg hmatch)
  | insert policy r now again => exact absurd rfl (hinsert policy r now again)
  | changeRun runId change =>
    show (changeRun runId change db).jobs.find? id = _
    unfold changeRun
    split <;> exact hrow
  | done => exact hrow

/-- An insertion whose condition holds. -/
theorem insertJob_inserts {again : Bool} (hcost : 0 ≤ r.estimatedCost)
    (h : Inserts db (.insert policy r now again)) :
    ∃ p db₁ jobs, Booked policy r db db₁ ∧ db₁.jobs.insert? (newJob p r now) = some jobs ∧
      insertJob policy r now db = (.ok ⟨newJob p r now, .created⟩, { db₁ with jobs }) := by
  obtain ⟨hpolicy, hslot, hfree, db₁, hbudget⟩ := h
  obtain ⟨p, rfl⟩ := Option.isSome_iff_exists.mp hpolicy
  have hbooked := reserveBudget_ok hcost hbudget
  obtain ⟨jobs, hinsert⟩ := Table.exists_insert? (t := db₁.jobs) (a := newJob p r now)
    (by rw [hbooked.jobs]; exact hfree)
  have hcreate : createJob (some p) r now db
      = (.ok ⟨newJob p r now, .created⟩, { db₁ with jobs }) := by
    show AudioM.bind _ _ db = _
    unfold AudioM.bind
    rw [hbudget]
    refine Eq.trans (AudioM.read_bind (requirePolicy (some p)) _ db₁) ?_
    simp only [requirePolicy, pure, Except.pure, hinsert]
  refine ⟨p, db₁, jobs, hbooked, hinsert, ?_⟩
  rw [insertJob_free hslot]
  unfold AudioM.savepoint
  rw [hcreate]

theorem insertJob_ok {again : Bool} {outcome : ReservationOutcome} {db' : AudioDb}
    (hcost : 0 ≤ r.estimatedCost) (h : insertJob policy r now db = (.ok outcome, db')) :
    Inserts db (.insert policy r now again) := by
  have h := AudioM.savepoint_ok h
  split at h
  next created db'' hcreate =>
    split at h
    next hslot =>
      obtain ⟨_, db₁, hbudget, hcreate⟩ := AudioM.bind_ok hcreate
      obtain ⟨p, hpolicy, hcreate⟩ := AudioM.read_bind_ok hcreate
      dsimp only at hcreate
      split at hcreate
      next jobs hinsert =>
        have hfree := (Table.insert?_eq_some.mp hinsert).1
        rw [(reserveBudget_ok hcost hbudget).jobs] at hfree
        refine ⟨?_, hslot, hfree, db₁, hbudget⟩
        cases policy with
        | none => cases hpolicy
        | some _ => rfl
      · cases hcreate
    · cases h
  next hnot => exact absurd h (hnot outcome db')

/-- Where the condition does not hold, nothing is inserted. -/
theorem exec_not_inserts {again : Bool} (hcost : 0 ≤ r.estimatedCost)
    (h : ¬ Inserts db (.insert policy r now again)) :
    (exec db (.insert policy r now again)).1 = db := by
  rcases hinsert : insertJob policy r now db with ⟨e | outcome, db'⟩
  · have hsame : db' = db := AudioM.atomic_savepoint _ db e db' hinsert
    cases e with
    | integrity =>
      simp only [exec, hinsert, hsame]
      split <;> rfl
    | _ => simp only [exec, hinsert, hsame]
  · exact absurd (insertJob_ok hcost hinsert) h

/-- An insertion whose condition holds. -/
theorem exec_inserts {again : Bool} (hcost : 0 ≤ r.estimatedCost)
    (h : Inserts db (.insert policy r now again)) :
    ∃ p, ∃ db₁ : AudioDb, ∃ jobs, Booked policy r db db₁ ∧
      db₁.jobs.insert? (newJob p r now) = some jobs ∧
      exec db (.insert policy r now again) = ({ db₁ with jobs }, .done) := by
  obtain ⟨p, db₁, jobs, hbooked, hinsert, hexec⟩ := insertJob_inserts hcost h
  refine ⟨p, db₁, jobs, hbooked, hinsert, ?_⟩
  simp only [exec, hexec]

theorem changeRun_later (runId : String) (change : RunChange) :
    Evolves LaterRun db.runs (changeRun runId change db).runs := by
  unfold changeRun
  intro id run hfind
  cases hrun : db.runs.find? runId with
  | none => exact ⟨run, hfind, Nat.le_refl _⟩
  | some found =>
    have hkey : (change.apply found).runId = runId := by
      rw [← Table.key_of_find? hrun]
      cases change <;> rfl
    dsimp only
    by_cases hid : id = runId
    · refine ⟨change.apply found, ?_, ?_⟩
      · rw [hid, ← hkey]
        exact Table.find?_put_self (a := change.apply found) (hkey ▸ hrun)
      · have hsame : run = found := by
          rw [hid, hrun] at hfind
          injection hfind with hsame
          exact hsame.symm
        rw [hsame]
        cases change with
        | claimed =>
          unfold LaterRun currentAttempt RunChange.apply
          dsimp only
          split <;> split <;> omega
        | cancelRequested moment => exact Nat.le_refl (currentAttempt found)
        | privacy state => exact Nat.le_refl (currentAttempt found)
    · refine ⟨run, ?_, Nat.le_refl _⟩
      rw [← hfind]
      exact Table.find?_put_ne (fun he => hid (he.trans hkey))

/-- The operation leaves the runs alone. -/
def KeepsRuns {α : Type} (x : AudioM α) : Prop := ∀ db, (x db).2.runs = db.runs

theorem keepsRuns_bind {α β : Type} {x : AudioM α} {f : α → AudioM β} (hx : KeepsRuns x)
    (hf : ∀ a, KeepsRuns (f a)) : KeepsRuns (x >>= f) := by
  intro db
  have hdb := hx db
  show (AudioM.bind x f db).2.runs = db.runs
  unfold AudioM.bind
  split
  next a db' heq =>
    rw [heq] at hdb
    exact (hf a db').trans hdb
  next e db' heq =>
    rw [heq] at hdb
    exact hdb

theorem keepsRuns_savepoint {α : Type} {x : AudioM α} (hx : KeepsRuns x) :
    KeepsRuns (AudioM.savepoint x) := by
  intro db
  have hdb := hx db
  unfold AudioM.savepoint
  split
  next a db' heq =>
    rw [heq] at hdb
    exact hdb
  next => rfl

theorem keepsRuns_reserveBudget (policy : Option MemoirAudioCostPolicy)
    (r : MemoirAudioJobReservation) : KeepsRuns (reserveBudget policy r) := by
  unfold reserveBudget
  dsimp only
  split
  · exact fun _ => rfl
  · refine keepsRuns_bind (fun _ => rfl) fun p => keepsRuns_bind (fun _ => rfl) fun _ db => ?_
    split
    · rfl
    · split
      · rfl
      · split <;> rfl

theorem keepsRuns_insertJob (policy : Option MemoirAudioCostPolicy)
    (r : MemoirAudioJobReservation) (now : Time) : KeepsRuns (insertJob policy r now) := by
  have hcreate : KeepsRuns (createJob policy r now) := by
    refine keepsRuns_bind (keepsRuns_reserveBudget policy r) fun _ =>
      keepsRuns_bind (fun _ => rfl) fun p db => ?_
    split <;> rfl
  refine keepsRuns_savepoint fun db => ?_
  have hdb := hcreate db
  rcases hcreated : createJob policy r now db with ⟨e | outcome, db'⟩
  · rw [hcreated] at hdb
    exact hdb
  · rw [hcreated] at hdb
    dsimp only
    split <;> exact hdb

/-- No session writes the runs. -/
theorem exec_runs_eq {c : Draft} (h : ∀ runId change, c ≠ .changeRun runId change) :
    (exec db c).1.runs = db.runs := by
  cases c with
  | leased policy w leaseToken read now =>
    show (w.update policy leaseToken now read db).2.runs = db.runs
    unfold LeasedWrite.update casUpdate
    split
    · rfl
    · split <;> rfl
  | retry policy r read now =>
    show (reserveExisting policy read r now db).2.runs = db.runs
    by_cases hstate : read.state ∈ retryStates
    · have hruns := keepsRuns_reserveBudget policy r db
      rw [reserveExisting_retry hstate]
      rcases hbudget : reserveBudget policy r db with ⟨e | u, db₁⟩
      · rfl
      · rw [hbudget] at hruns
        dsimp only
        split
        · rfl
        · split
          · exact hruns
          · rfl
    · rw [reserveExisting_refused db hstate]
  | insert policy r now again =>
    have hruns := keepsRuns_insertJob policy r now db
    rcases hinsert : insertJob policy r now db with ⟨e | outcome, db'⟩
    · rw [hinsert] at hruns
      cases e with
      | integrity =>
        simp only [exec, hinsert]
        split <;> exact hruns
      | _ =>
        simp only [exec, hinsert]
        exact hruns
    · rw [hinsert] at hruns
      simp only [exec, hinsert]
      exact hruns
  | clean read now =>
    show (flushCleaned read now db).runs = db.runs
    unfold flushCleaned
    split <;> rfl
  | failKeyed cutoff => rfl
  | failKeyless cutoff => rfl
  | changeRun runId change => exact absurd rfl (h runId change)
  | done => rfl

/-- A run goes on, if at all. -/
theorem exec_runs (c : Draft) : Evolves LaterRun db.runs (exec db c).1.runs := by
  cases c with
  | changeRun runId change => exact changeRun_later runId change
  | _ =>
    rw [exec_runs_eq]
    · exact Evolves.refl (fun run => Nat.le_refl (currentAttempt run)) _
    · exact fun _ _ => nofun

/-! ## Writes under a lease -/

/-- Only a rotation changes the token or the owner. -/
theorem values_owner (policy : Option MemoirAudioCostPolicy) (now : Time)
    (read row : MemoirAudioJob) (w : LeasedWrite) :
    ((w.values policy now row).leaseToken = row.leaseToken + 1) ∨
      ((w.values policy now row).leaseToken = row.leaseToken ∧
        (w.values policy now row).leaseOwner = row.leaseOwner ∧
        ¬ TakesOver (.leased policy w row.leaseToken read now)) := by
  cases w with
  | rotateLease owner ttl => exact Or.inl rfl
  | _ => exact Or.inr ⟨rfl, rfl, id⟩

theorem values_reservedCost (w : LeasedWrite) :
    (w.values policy now row).reservedCost = row.reservedCost := by
  cases w <;> rfl

/-- A write leaves the state alone, or takes one of its states to an active
one, from an active one to another, or from `uploaded` to `published`. -/
theorem values_state (policy : Option MemoirAudioCostPolicy) (now : Time) (w : LeasedWrite)
    (hstate : row.state ∈ w.states) :
    ((w.values policy now row).state = row.state) ∨
      (row.state ∈ activeStates ∧ (w.values policy now row).state ≠ .published ∧
        (w.values policy now row).state ≠ .cleaned) ∨
      (row.state = .uploaded ∧ (w.values policy now row).state = .published) := by
  cases w with
  | markPublished =>
    rcases List.mem_cons.mp hstate with hup | hpub
    · exact Or.inr (Or.inr ⟨hup, rfl⟩)
    · exact Or.inl (List.mem_singleton.mp hpub).symm
  | recordObjectKey | settleTtsUsage | settleMusicUsage | settleDefaultMusicUsage | renewLease
  | rotateLease => exact Or.inl rfl
  | recordUpload | markFailed | markCancelled =>
    exact Or.inr (Or.inl ⟨hstate, nofun, nofun⟩)
  | markSubmitting | markSubmitted | markProcessing | markSubmissionUnknown =>
    refine Or.inr (Or.inl ⟨?_, nofun, nofun⟩)
    rcases List.mem_cons.mp hstate with h | h
    · rw [h]
      decide
    · rw [List.mem_singleton.mp h]
      decide

/-! ## What a fresh session does to a row -/

theorem lawfulRow_same (db : AudioDb) (c : Draft) (row : MemoirAudioJob) :
    LawfulRow db c row row where
  monotone := Nat.le_refl _
  ownership h := by
    rcases h with hne | ⟨-, hne⟩ <;> exact absurd rfl hne
  token _ _ _ := rfl
  attempt _ := rfl
  reserved hne := absurd rfl hne
  published h := Or.inl h
  inFlight h hclean := by
    rw [hclean] at h
    exact absurd h (by decide)

/-- A session of an earlier execution attempt changes no row. -/
theorem Fresh.outdated {c : Draft} (hfresh : Fresh db c) (hrow : db.jobs.find? id = some row)
    (hmatch : Matches db row c) (hold : Outdated db c) : updated row c = row := by
  obtain ⟨runId, attempt, run, hworks, hrun, hlt⟩ := hold
  by_contra hne
  have hcurrent := hfresh.2 (Or.inl ⟨id, row, hrow, hmatch, hne⟩) runId attempt run hworks hrun
  exact absurd hlt (hcurrent ▸ Nat.lt_irrefl _)

theorem find?_read {c : MemoirAudioJob} (hrow : db.jobs.find? id = some row)
    (hid : row.jobId = c.jobId) : db.jobs.find? c.jobId = some row := by
  rw [← hid, Table.key_of_find? hrow]
  exact hrow

/-- The copy of a retry that writes is the row it writes. -/
theorem Fresh.retry (hfresh : Fresh db (.retry policy r read now))
    (hcopy : CopyRead db (.retry policy r read now)) (hrow : db.jobs.find? id = some row)
    (hmatch : Matches db row (.retry policy r read now)) :
    row.leaseToken = read.leaseToken ∧ row.reservedCost = read.reservedCost := by
  have hfind := find?_read hrow hmatch.1
  have htoken := hfresh.1 row hfind hmatch
  obtain ⟨seen, hseen, hlater⟩ := hcopy.2.2
  rw [hfind] at hseen
  injection hseen with hsame
  subst hsame
  exact ⟨htoken, (hlater.2 htoken).1⟩

/-- A row that is marked cleaned has ended: with the token of the copy, as
the copy had, and with another one by the condition. -/
theorem Fresh.clean (hfresh : Fresh db (.clean read now))
    (hcopy : CopyRead db (.clean read now)) (hrow : db.jobs.find? id = some row)
    (hmatch : Matches db row (.clean read now)) : row.state ∉ activeStates := by
  have hfind := find?_read hrow hmatch
  obtain ⟨seen, hseen, hlater⟩ := hcopy.2
  rw [hfind] at hseen
  injection hseen with hsame
  subst hsame
  by_cases htoken : row.leaseToken = read.leaseToken
  · refine (hlater.2 htoken).2 fun hactive => ?_
    have horphan := hcopy.1
    cases hs : read.state <;> simp [hs, activeStates, orphanStates] at hactive horphan
  · exact hfresh.1 row hfind htoken

theorem lawfulRow_updated {c : Draft} (hcopy : CopyRead db c) (hfresh : Fresh db c)
    (hrow : db.jobs.find? id = some row) (hmatch : Matches db row c) :
    LawfulRow db c row (updated row c) := by
  have hattempt := hfresh.outdated hrow hmatch
  cases c with
  | leased policy w leaseToken read now =>
    obtain ⟨-, htoken, hstate⟩ := hmatch
    have howner := values_owner policy now read row w
    have hvalues := values_state policy now w hstate
    rw [htoken] at howner
    refine ⟨?_, fun h => ?_, fun t ht hlt => ?_, hattempt, fun _ => ?_, fun h => ?_, fun h hc => ?_⟩
    · show row.leaseToken ≤ (w.values policy now row).leaseToken
      rcases howner with h | ⟨h, -⟩ <;> omega
    · show row.leaseToken < (w.values policy now row).leaseToken
      rcases howner with htake | ⟨-, hsame, hnot⟩
      · omega
      · rcases h with hne | ⟨htakes, -⟩
        · exact absurd hsame hne
        · exact absurd htakes hnot
    · injection ht with ht
      omega
    · exact (values_reservedCost w).trans (add_zero _).symm
    · have h : (w.values policy now row).state = .published := h
      rcases hvalues with hsame | ⟨-, hne, -⟩ | ⟨hup, -⟩
      · exact Or.inl (hsame ▸ h)
      · exact absurd h hne
      · exact Or.inr hup
    · have hc : (w.values policy now row).state = .cleaned := hc
      rcases hvalues with hsame | ⟨-, -, hne⟩ | ⟨-, hpub⟩
      · rw [← hsame, hc] at h
        exact absurd h (by decide)
      · exact hne hc
      · rw [hpub] at hc
        cases hc
  | retry policy r read now =>
    obtain ⟨htoken, hcost⟩ := hfresh.retry hcopy hrow hmatch
    have hnext : row.leaseToken < read.leaseToken + 1 := by omega
    refine ⟨hnext.le, fun _ => hnext, fun t ht hlt => ?_, hattempt, fun _ => ?_, nofun,
      fun _ => nofun⟩
    · injection ht with ht
      omega
    · exact congrArg (· + r.estimatedCost) hcost.symm
  | clean read now =>
    have hended := hfresh.clean hcopy hrow hmatch
    refine ⟨Nat.le_refl _, fun h => ?_, nofun, hattempt, fun _ => (add_zero _).symm, nofun,
      fun h => absurd h hended⟩
    rcases h with hne | ⟨htakes, -⟩
    · exact absurd rfl hne
    · exact htakes.elim
  | failKeyed cutoff =>
    refine ⟨Nat.le_refl _, fun h => ?_, nofun, hattempt, fun _ => (add_zero _).symm, nofun,
      fun _ => nofun⟩
    rcases h with hne | ⟨htakes, -⟩
    · exact absurd rfl hne
    · exact htakes.elim
  | failKeyless cutoff =>
    refine ⟨Nat.le_refl _, fun h => ?_, nofun, hattempt, fun _ => (add_zero _).symm, nofun,
      fun _ => nofun⟩
    rcases h with hne | ⟨htakes, -⟩
    · exact absurd rfl hne
    · exact htakes.elim
  | insert policy r now again => exact hmatch.elim
  | changeRun runId change => exact hmatch.elim
  | done => exact hmatch.elim

/-- What a fresh session makes of a row has become of the row. -/
theorem laterJob_updated {c : Draft} (hcopy : CopyRead db c) (hfresh : Fresh db c)
    (hrow : db.jobs.find? id = some row) (hmatch : Matches db row c) :
    LaterJob row (updated row c) := by
  refine ⟨(lawfulRow_updated hcopy hfresh hrow hmatch).monotone, fun hsame => ?_⟩
  cases c with
  | leased policy w leaseToken read now =>
    refine ⟨values_reservedCost w, fun hended hactive => ?_⟩
    have hactive : (w.values policy now row).state ∈ activeStates := hactive
    rcases values_state policy now w hmatch.2.2 with h | ⟨h, -⟩ | ⟨-, h⟩
    · exact hended (h ▸ hactive)
    · exact hended h
    · rw [h] at hactive
      exact absurd hactive (by decide)
  | retry policy r read now =>
    have htoken := (hfresh.retry hcopy hrow hmatch).1
    have hsame : read.leaseToken + 1 = row.leaseToken := hsame
    omega
  | clean read now =>
    refine ⟨rfl, fun _ => ?_⟩
    show AudioState.cleaned ∉ activeStates
    decide
  | failKeyed cutoff =>
    refine ⟨rfl, fun _ => ?_⟩
    show AudioState.failed ∉ activeStates
    decide
  | failKeyless cutoff =>
    refine ⟨rfl, fun _ => ?_⟩
    show AudioState.failed ∉ activeStates
    decide
  | insert policy r now again => exact hmatch.elim
  | changeRun runId change => exact hmatch.elim
  | done => exact hmatch.elim

/-! ## One session's update -/

/-- The rows after an update of a fresh session. -/
theorem exec_row {c : Draft} (hcopy : CopyRead db c) (hfresh : Fresh db c)
    (hrow : db.jobs.find? id = some row) :
    ∃ row', (exec db c).1.jobs.find? id = some row' ∧ LawfulRow db c row row' ∧
      LaterJob row row' := by
  by_cases hmatch : Matches db row c
  · exact ⟨updated row c, exec_matches hcopy hrow hmatch,
      lawfulRow_updated hcopy hfresh hrow hmatch, laterJob_updated hcopy hfresh hrow hmatch⟩
  · refine ⟨row, ?_, lawfulRow_same db c row, LaterJob.refl row⟩
    cases c with
    | insert policy r now again =>
      by_cases hinserts : Inserts db (.insert policy r now again)
      · obtain ⟨p, db₁, jobs, hbooked, hinsert, hexec⟩ := exec_inserts hcopy hinserts
        rw [hexec]
        show jobs.find? id = some row
        rw [Table.find?_insert? hinsert, if_neg, hbooked.jobs]
        · exact hrow
        · intro hid
          rw [hid] at hrow
          exact absurd (hrow.symm.trans hinserts.2.2.1) nofun
      · rw [exec_not_inserts hcopy hinserts]
        exact hrow
    | _ => exact exec_spares hcopy (fun _ _ _ _ h => by cases h) hrow hmatch

theorem exec_later {c : Draft} (hcopy : CopyRead db c) (hfresh : Fresh db c) :
    LaterDb db (exec db c).1 where
  jobs _ _ hrow := by
    obtain ⟨row', hfind, -, hlater⟩ := exec_row hcopy hfresh hrow
    exact ⟨row', hfind, hlater⟩
  runs := exec_runs c

theorem find?_putJob_none {db : AudioDb} {id : String} (row : MemoirAudioJob)
    (h : db.jobs.find? id = none) : (db.putJob row).jobs.find? id = none := by
  rw [AudioDb.jobs_putJob, Table.find?_put, h]
  split <;> rfl

/-- The other updates make none. -/
theorem exec_absent {c : Draft} (hcopy : CopyRead db c) (hinsert : ∀ p r n a, c ≠ .insert p r n a)
    (hnone : db.jobs.find? id = none) : (exec db c).1.jobs.find? id = none := by
  cases c with
  | leased policy w leaseToken read now =>
    show (w.update policy leaseToken now read db).2.jobs.find? id = none
    unfold LeasedWrite.update casUpdate
    split
    · exact hnone
    · split
      · exact find?_putJob_none _ hnone
      · exact hnone
  | retry policy r read now =>
    show (reserveExisting policy read r now db).2.jobs.find? id = none
    rw [reserveExisting_retry hcopy.2.1]
    rcases hbudget : reserveBudget policy r db with ⟨e | u, db₁⟩
    · exact hnone
    · dsimp only
      split
      · exact hnone
      · split
        · refine find?_putJob_none _ ?_
          rw [(reserveBudget_ok hcopy.1 hbudget).jobs]
          exact hnone
        · exact hnone
  | clean read now =>
    show (flushCleaned read now db).jobs.find? id = none
    unfold flushCleaned
    split
    · exact hnone
    · exact find?_putJob_none _ hnone
  | failKeyed cutoff =>
    show (failAbandonedKeyedJobs cutoff db).jobs.find? id = none
    unfold failAbandonedKeyedJobs
    dsimp only
    rw [Table.find?_mapRows, hnone]
    rfl
  | failKeyless cutoff =>
    show (failAbandonedKeylessDefaultJobs cutoff db).jobs.find? id = none
    unfold failAbandonedKeylessDefaultJobs
    dsimp only
    rw [Table.find?_mapRows, hnone]
    rfl
  | insert policy r now again => exact absurd rfl (hinsert policy r now again)
  | changeRun runId change =>
    show (changeRun runId change db).jobs.find? id = none
    unfold changeRun
    split <;> exact hnone
  | done => exact hnone

/-- Only an insertion makes new rows. -/
theorem exec_none {c : Draft} (hcopy : CopyRead db c) (hnone : db.jobs.find? id = none)
    (hrow : (exec db c).1.jobs.find? id = some row) :
    Inserts db c ∧ row.state = .reserved ∧ row.reservedCost = reservation c := by
  cases c with
  | insert policy r now again =>
    by_cases hinserts : Inserts db (.insert policy r now again)
    · obtain ⟨p, db₁, jobs, hbooked, hinsert, hexec⟩ := exec_inserts hcopy hinserts
      rw [hexec] at hrow
      have hrow : jobs.find? id = some row := hrow
      rw [Table.find?_insert? hinsert] at hrow
      split at hrow
      · injection hrow with hrow
        subst hrow
        exact ⟨hinserts, rfl, rfl⟩
      · rw [hbooked.jobs, hnone] at hrow
        cases hrow
    · rw [exec_not_inserts hcopy hinserts, hnone] at hrow
      cases hrow
  | _ =>
    rw [exec_absent hcopy (fun _ _ _ _ h => by cases h) hnone] at hrow
    cases hrow

/-- **The condition is exact**, for what a session knows. -/
theorem lawful_iff_fresh {c : Draft} (h : Holding db c) : Lawful db c ↔ Fresh db c := by
  constructor
  · intro hlawful
    refine ⟨?_, fun hchanges runId attempt run hworks hrun => ?_⟩
    · cases c with
      | retry policy r read now =>
        intro row hrow hmatch
        obtain ⟨row', hrow', hlaw⟩ := hlawful.rows _ row hrow
        rw [exec_matches h.copy hrow hmatch] at hrow'
        injection hrow' with hsame
        subst hsame
        have hne : updated row (.retry policy r read now) ≠ row := fun he => by
          have hstate : AudioState.reserved = row.state := congrArg MemoirAudioJob.state he
          have hretry := h.copy.2.1
          rw [← hmatch.2.1, ← hstate] at hretry
          exact absurd hretry (by decide)
        have hlt : row.leaseToken < read.leaseToken + 1 := hlaw.ownership (Or.inr ⟨trivial, hne⟩)
        obtain ⟨seen, hseen, hlater⟩ := h.copy.2.2
        rw [hrow] at hseen
        injection hseen with hsame
        subst hsame
        exact (hlater.current (Nat.lt_succ_iff.mp hlt)).1
      | clean read now =>
        intro row hrow _ hactive
        obtain ⟨row', hrow', hlaw⟩ := hlawful.rows _ row hrow
        rw [exec_matches h.copy hrow (Table.key_of_find? hrow)] at hrow'
        injection hrow' with hsame
        subst hsame
        exact hlaw.inFlight hactive rfl
      | _ => trivial
    · obtain ⟨run', hrun', hle⟩ := h.attempt runId attempt hworks
      rw [hrun] at hrun'
      injection hrun' with hsame
      subst hsame
      by_contra hne
      have hold : Outdated db c := ⟨runId, attempt, run, hworks, hrun, by omega⟩
      rcases hchanges with ⟨id, row, hrow, hmatch, hchanged⟩ | hinserts
      · obtain ⟨row', hrow', hlaw⟩ := hlawful.rows id row hrow
        rw [exec_matches h.copy hrow hmatch] at hrow'
        injection hrow' with hsame
        exact hchanged (hsame.trans (hlaw.attempt hold))
      · cases c with
        | insert policy r now again =>
          obtain ⟨p, db₁, jobs, -, hinsert, hexec⟩ := exec_inserts h.copy hinserts
          refine (hlawful.created r.jobId (newJob p r now) hinserts.2.2.1 ?_).2.2 hold
          rw [hexec]
          show jobs.find? r.jobId = _
          rw [Table.find?_insert? hinsert]
          exact if_pos rfl
        | _ => exact hinserts.elim
  · intro hfresh
    refine ⟨fun id row hrow => ?_, fun id row' hnone hrow' => ?_⟩
    · obtain ⟨row', hrow', hlaw, -⟩ := exec_row h.copy hfresh hrow
      exact ⟨row', hrow', hlaw⟩
    · obtain ⟨hinserts, hstate, hcost⟩ := exec_none h.copy hnone hrow'
      refine ⟨hstate, hcost, fun ⟨runId, attempt, run, hworks, hrun, hlt⟩ => ?_⟩
      have hcurrent := hfresh.2 (Or.inr hinserts) runId attempt run hworks hrun
      omega

/-! ## What a read gives -/

/-- The run was in the execution attempt the session works for. -/
theorem assertRunActive_attempt {runId : String} {owner : LeaseOwner} {attempt : Nat}
    (h : assertRunActive runId (some owner) db = .ok ())
    (howner : owner.attemptOf runId = some attempt) :
    ∃ run, db.runs.find? runId = some run ∧ currentAttempt run = attempt := by
  unfold assertRunActive at h
  cases hrun : db.runs.find? runId with
  | none =>
    rw [hrun] at h
    cases h
  | some run =>
    rw [hrun] at h
    obtain ⟨_, -, h⟩ := AgentRuntime.bind_ok.mp h
    obtain ⟨_, -, h⟩ := AgentRuntime.bind_ok.mp h
    have hbind : (some owner).bind (LeaseOwner.attemptOf runId) = some attempt := howner
    rw [hbind] at h
    exact ⟨run, rfl, (require_ok.mp h).symm⟩

/-- A retry, or nothing: the copy is the row of the slot. -/
theorem copyRead_onExisting (hcost : 0 ≤ r.estimatedCost)
    (hfound : findJob r.slot db = some row) : CopyRead db (onExisting policy r now row) := by
  unfold onExisting
  split
  next hstate => exact ⟨hcost, hstate, seen_of_find? LaterJob.refl (findJob_some hfound).1⟩
  · trivial

theorem copyRead_request {q : AudioRequest} {c : Draft} (h : request db q = some c) :
    CopyRead db c := by
  unfold request at h
  cases q with
  | reserve policy r now =>
    dsimp only at h
    split at h
    · cases h
    next hchecks =>
      obtain ⟨_, hvalid, -⟩ := AgentRuntime.bind_ok.mp hchecks
      have hcost : 0 ≤ r.estimatedCost := by
        obtain ⟨_, -, hvalid⟩ := AgentRuntime.bind_ok.mp hvalid
        obtain ⟨_, hcost, -⟩ := AgentRuntime.bind_ok.mp hvalid
        exact require_ok.mp hcost
      split at h
      next existing hfound =>
        injection h with h
        subst h
        exact copyRead_onExisting hcost hfound
      · injection h with h
        subst h
        exact hcost
  | leased policy w jobId leaseToken now =>
    dsimp only at h
    split at h
    · injection h with h
      subst h
      trivial
    · cases h
  | markCleaned jobId now =>
    dsimp only at h
    split at h
    · cases h
    next job hfind =>
      split at h
      next horphan =>
        injection h with h
        subst h
        exact ⟨horphan, seen_of_find? LaterJob.refl hfind⟩
      · cases h
  | failKeyed cutoff | failKeyless cutoff | changeRun runId change =>
    injection h with h
    subst h
    trivial

/-- A session that has read works for the execution attempt the run is in. -/
def InAttempt (db : AudioDb) (c : Draft) : Prop :=
  ∀ runId attempt, WorksFor c runId attempt →
    ∃ run, db.runs.find? runId = some run ∧ currentAttempt run = attempt

/-- The fence of a retry is the one of its reservation. -/
theorem worksFor_onExisting {runId : String} {attempt : Nat}
    (h : WorksFor (onExisting policy r now row) runId attempt) :
    runId = r.slot.runId ∧ r.leaseOwner.attemptOf runId = some attempt := by
  obtain ⟨owner, hfence, howner⟩ := h
  unfold onExisting at hfence
  split at hfence
  · cases hfence
    exact ⟨rfl, howner⟩
  · cases hfence

theorem worksFor_insert {runId : String} {attempt : Nat} {again : Bool}
    (h : WorksFor (.insert policy r now again) runId attempt) :
    runId = r.slot.runId ∧ r.leaseOwner.attemptOf runId = some attempt := by
  obtain ⟨owner, hfence, howner⟩ := h
  cases hfence
  exact ⟨rfl, howner⟩

theorem inAttempt_request {q : AudioRequest} {c : Draft} (h : request db q = some c) :
    InAttempt db c := by
  intro runId attempt hworks
  unfold request at h
  cases q with
  | reserve policy r now =>
    dsimp only at h
    split at h
    · cases h
    next hchecks =>
      obtain ⟨_, -, hslot⟩ := AgentRuntime.bind_ok.mp hchecks
      obtain ⟨_, hrun, -⟩ := AgentRuntime.bind_ok.mp hslot
      have hfence : runId = r.slot.runId ∧ r.leaseOwner.attemptOf runId = some attempt := by
        split at h
        · injection h with h
          exact worksFor_onExisting (h ▸ hworks)
        · injection h with h
          exact worksFor_insert (h ▸ hworks)
      obtain ⟨rfl, howner⟩ := hfence
      exact assertRunActive_attempt hrun howner
  | leased policy w jobId leaseToken now =>
    dsimp only at h
    split at h
    next row hread =>
      injection h with h
      subst h
      obtain ⟨_, -, hread⟩ := AgentRuntime.bind_ok.mp hread
      obtain ⟨loaded, hload, hread⟩ := AgentRuntime.bind_ok.mp hread
      obtain ⟨_, -, hread⟩ := AgentRuntime.bind_ok.mp hread
      cases hread
      obtain ⟨-, hrun, -⟩ := loadForWrite_ok.mp hload
      obtain ⟨owner, hfence, howner⟩ := hworks
      cases hfence
      exact assertRunActive_attempt hrun howner
    · cases h
  | markCleaned jobId now =>
    obtain ⟨owner, hfence, -⟩ := hworks
    dsimp only at h
    split at h
    · cases h
    · split at h
      · injection h with h
        subst h
        cases hfence
      · cases h
  | failKeyed cutoff | failKeyless cutoff | changeRun runId change =>
    obtain ⟨owner, hfence, -⟩ := hworks
    injection h with h
    subst h
    cases hfence

theorem holding_request {q : AudioRequest} {c : Draft} (h : request db q = some c) :
    Holding db c where
  copy := copyRead_request h
  attempt runId attempt hworks := by
    obtain ⟨run, hfind, hcurrent⟩ := inAttempt_request h runId attempt hworks
    exact ⟨run, hfind, hcurrent.ge⟩

/-- What is left of a session after its update: it is over, or, where its
insertion was refused, it goes on with the same reservation. -/
theorem exec_left (db : AudioDb) (c : Draft) : (exec db c).2 = .done ∨
    ∃ policy r now again, c = .insert policy r now again ∧ (exec db c).1 = db ∧
      ((∃ winner, findJob r.slot db = some winner ∧
          (exec db c).2 = onExisting policy r now winner) ∨
        (exec db c).2 = .insert policy r now false) := by
  cases c with
  | insert policy r now again =>
    rcases hinsert : insertJob policy r now db with ⟨e | outcome, db'⟩
    · have hsame : db' = db := AudioM.atomic_savepoint _ db e db' hinsert
      subst hsame
      cases e with
      | integrity =>
        cases hslot : findJob r.slot db' with
        | some winner =>
          refine Or.inr ⟨policy, r, now, again, rfl, ?_, Or.inl ⟨winner, hslot, ?_⟩⟩ <;>
            simp only [exec, hinsert, hslot]
        | none =>
          cases again with
          | true =>
            refine Or.inr ⟨policy, r, now, true, rfl, ?_, Or.inr ?_⟩ <;>
              simp only [exec, hinsert, hslot, if_true]
          | false =>
            left
            simp only [exec, hinsert, hslot]
            rfl
      | _ =>
        left
        simp only [exec, hinsert]
    · left
      simp only [exec, hinsert]
  | _ => exact Or.inl rfl

theorem worksFor_left {c : Draft} {runId : String} {attempt : Nat}
    (h : WorksFor (exec db c).2 runId attempt) : WorksFor c runId attempt := by
  rcases exec_left db c with hdone | ⟨policy, r, now, again, rfl, -, hleft⟩
  · rw [hdone] at h
    obtain ⟨owner, hfence, -⟩ := h
    cases hfence
  · have hsame : runId = r.slot.runId ∧ r.leaseOwner.attemptOf runId = some attempt := by
      rcases hleft with ⟨winner, -, hexec⟩ | hexec
      · exact worksFor_onExisting (hexec ▸ h)
      · exact worksFor_insert (hexec ▸ h)
    obtain ⟨rfl, howner⟩ := hsame
    exact ⟨r.leaseOwner, rfl, howner⟩

theorem copyRead_left {c : Draft} (h : CopyRead db c) :
    CopyRead (exec db c).1 (exec db c).2 := by
  rcases exec_left db c with hdone | ⟨policy, r, now, again, rfl, hdb, hleft⟩
  · rw [hdone]
    trivial
  · rw [hdb]
    rcases hleft with ⟨winner, hwinner, hexec⟩ | hexec
    · rw [hexec]
      exact copyRead_onExisting h hwinner
    · rw [hexec]
      exact h

theorem holding_exec {c : Draft} (h : Holding db c) : Holding (exec db c).1 (exec db c).2 where
  copy := copyRead_left h.copy
  attempt runId attempt hworks := by
    obtain ⟨run, hfind, hle⟩ := h.attempt runId attempt (worksFor_left hworks)
    obtain ⟨run', hfind', hrun⟩ := exec_runs c runId run hfind
    exact ⟨run', hfind', hle.trans hrun⟩

/-! ## The lock on the run -/

/-- No other service changes a run while a session that has checked it is
about to write: what `FOR UPDATE` on the run's row sees to. -/
def RunLocked (w : World AudioDb Draft) (e : Event AudioRequest) : Prop :=
  match e.move with
  | .call _ => True
  | .advance i => ∀ runId change, w.calls[i]? = some (.changeRun runId change) →
      ∀ c ∈ w.calls, ∀ attempt, ¬ WorksFor c runId attempt

theorem inAttempt_advance {w : World AudioDb Draft} {i : Nat} {c d : Draft}
    (hcall : w.calls[i]? = some c) (hd : d ∈ w.calls) (hin : InAttempt w.shared d)
    (hlock : RunLocked w ⟨0, .advance i⟩) : InAttempt (exec w.shared c).1 d := by
  intro runId attempt hworks
  obtain ⟨run, hfind, hcurrent⟩ := hin runId attempt hworks
  refine ⟨run, ?_, hcurrent⟩
  by_cases hchange : ∃ id change, c = .changeRun id change
  · obtain ⟨id, change, rfl⟩ := hchange
    have hne : runId ≠ id := fun he =>
      hlock id change hcall d hd attempt (he ▸ hworks)
    show (changeRun id change w.shared).runs.find? runId = some run
    unfold changeRun
    cases hfound : w.shared.runs.find? id with
    | none => exact hfind
    | some found =>
      have hkey : (change.apply found).runId = id := by
        rw [← Table.key_of_find? hfound]
        cases change <;> rfl
      dsimp only
      rw [Table.find?_put_ne (a := change.apply found) (hkey ▸ hne)]
      exact hfind
  · rw [exec_runs_eq fun id change he => hchange ⟨id, change, he⟩]
    exact hfind

theorem inAttempt_step (w : World AudioDb Draft) (e : Event AudioRequest)
    (h : ∀ c ∈ w.calls, InAttempt w.shared c) (hlock : RunLocked w e) :
    ∀ c ∈ (ledger.step w e).calls, InAttempt (ledger.step w e).shared c := by
  obtain ⟨t, move⟩ := e
  cases move with
  | call q =>
    unfold Program.step
    dsimp only
    split
    · exact h
    next c hcall =>
      intro d hd
      rcases List.mem_append.mp hd with hold | hnew
      · exact h d hold
      · rw [List.mem_singleton.mp hnew]
        exact inAttempt_request hcall
  | advance i =>
    cases hcall : w.calls[i]? with
    | none =>
      unfold Program.step
      simp only [hcall]
      exact h
    | some c =>
      rw [Program.step_advance ledger t hcall]
      have hc := List.mem_of_getElem? hcall
      intro d hd
      rcases List.mem_or_eq_of_mem_set hd with hold | rfl
      · exact inAttempt_advance hcall hold (h d hold) hlock
      · intro runId attempt hworks
        exact inAttempt_advance hcall hc (h c hc) hlock runId attempt (worksFor_left hworks)

/-- **The lock on the run does what it is for**: where nobody changes a run
under a session, every session writes for the execution attempt the run is in. -/
theorem row_locks_keep_attempt (db : AudioDb) (es : List (Event AudioRequest))
    (h : Along ledger.step RunLocked ⟨db, []⟩ es) :
    Along ledger.step (ledger.Meets AttemptHolds) ⟨db, []⟩ es := by
  refine along_of_along inAttempt_step (fun w e hin _ => ?_) es _ (fun _ hc => nomatch hc) h
  unfold Program.Meets
  split
  · trivial
  · intro c hc _ runId attempt run hworks hrun
    obtain ⟨run', hrun', hcurrent⟩ := hin c (List.mem_of_getElem? hc) runId attempt hworks
    rw [show ledger.wait w.shared e.elapsed = w.shared from rfl, hrun'] at hrun
    injection hrun with hsame
    exact hsame ▸ hcurrent

/-! ## Every run -/

/-- Sessions whose updates are fresh keep holding what they read. -/
theorem fresh_outline : Outline ledger Fresh (fun _ => True) Holding where
  wait _ _ _ := trivial
  waits _ _ _ h := h
  call _ _ _ _ h := holding_request h
  exec _ _ _ h _ := ⟨trivial, holding_exec h⟩
  spares _ _ _ _ h hfresh hd := hd.later (exec_later h.copy hfresh)

theorem meets_congr {P Q : AudioDb → Draft → Prop} {w : World AudioDb Draft}
    (h : ∀ c ∈ w.calls, P w.shared c ↔ Q w.shared c) (e : Event AudioRequest) :
    ledger.Meets P w e ↔ ledger.Meets Q w e := by
  unfold Program.Meets
  split
  · exact Iff.rfl
  · exact forall₂_congr fun c hc => h c (List.mem_of_getElem? hc)

end

end AudioSessions

open AudioSessions

/-- **Audio job writes are fenced and monotone** exactly where every update
finds what its session has read: along every run of any number of sessions,
whatever the order of their reads and updates. -/
theorem audio_writes_fenced_iff (db : AudioDb) (es : List (Interleave.Event AudioRequest)) :
    Along ledger.step (ledger.Meets Lawful) ⟨db, []⟩ es ↔
      Along ledger.step (ledger.Meets Fresh) ⟨db, []⟩ es := by
  have hsame : ∀ (w : World AudioDb Draft) e, Asserted (fun _ => True) Holding w →
      (ledger.Meets Lawful w e ↔ ledger.Meets Fresh w e) :=
    fun w e h => meets_congr (fun c hc => lawful_iff_fresh (h.2 c hc)) e
  have hstart : Asserted (fun _ => True) Holding (⟨db, []⟩ : World AudioDb Draft) :=
    ⟨trivial, fun _ hc => nomatch hc⟩
  constructor
  · exact along_of_along
      (fun w e h hlawful => fresh_outline.step w e h ((hsame w e h).mp hlawful))
      (fun w e h => (hsame w e h).mp) es _ hstart
  · exact along_of_along (fun w e h => fresh_outline.step w e h)
      (fun w e h => (hsame w e h).mpr) es _ hstart

namespace StaleRetryExample

open BudgetExample (policy agentRun)

/-- The reservation of either session. -/
def retried : MemoirAudioJobReservation := BudgetExample.reservation

def failedJob : MemoirAudioJob := { newJob policy retried 0 with state := .failed }

/-- A run, and a job whose first attempt has failed. -/
def db : AudioDb :=
  { runs := Table.empty.upsert agentRun, jobs := Table.empty.upsert failedJob }

/-- Two sessions read the failed job. The second one retries it and fails, and
then the first one retries what it has read. -/
def events : List (Interleave.Event AudioRequest) :=
  [⟨0, .call (.reserve (some policy) retried 1)⟩,
    ⟨0, .call (.reserve (some policy) retried 2)⟩, ⟨0, .advance 1⟩,
    ⟨0, .call (.leased (some policy) (.markFailed "TTS_HTTP_429") "audio-1" 2 3)⟩, ⟨0, .advance 2⟩]

/-- The ledger before the last update. -/
def before : World AudioDb Draft := run ledger.step ⟨db, []⟩ events

theorem before_draft :
    before.calls[0]? = some (.retry (some policy) retried failedJob 1) := by
  with_unfolding_all rfl

theorem before_row : (before.shared.jobs.find? "audio-1").map
    (fun row => (row.leaseToken, row.state)) = some (2, .failed) := by
  decide +kernel

theorem after_row :
    ((exec before.shared (.retry (some policy) retried failedJob 1)).1.jobs.find? "audio-1").map
    (fun row => (row.leaseToken, row.state)) = some (2, .reserved) := by
  decide +kernel

end StaleRetryExample

open StaleRetryExample in
open BudgetExample (policy) in
/-- The token of a stale retry is the one the row already has. -/
theorem stale_retry_keeps_token :
    ¬ Along ledger.step (ledger.Meets Lawful) ⟨db, []⟩ (events ++ [⟨0, .advance 0⟩]) := by
  intro h
  have hlast : ledger.Meets Lawful before ⟨0, .advance 0⟩ := ((along_append _ _ _).mp h).2.1
  have hlawful : Lawful before.shared (.retry (some policy) retried failedJob 1) :=
    hlast _ before_draft
  obtain ⟨row, hrow, hpair⟩ := Option.map_eq_some_iff.mp before_row
  obtain ⟨row', hrow', hlaw⟩ := hlawful.rows "audio-1" row hrow
  obtain ⟨after, hafter, hpair'⟩ := Option.map_eq_some_iff.mp after_row
  rw [hrow'] at hafter
  injection hafter with hsame
  subst hsame
  injection hpair with htoken hstate
  injection hpair' with htoken' hstate'
  have hne : row' ≠ row := fun he => by
    rw [he, hstate] at hstate'
    cases hstate'
  have hlt := hlaw.ownership (Or.inr ⟨trivial, hne⟩)
  omega

end AgentRuntime
