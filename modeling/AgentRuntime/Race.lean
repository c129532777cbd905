import AgentRuntime.CallbackStream
import AgentRuntime.Lib.Interleave

/-!
# Reading a run and writing it back

`start`, `cancel`, `retry` and `finish` load a row through the ORM, decide on
what they loaded and assign attributes; their commit sends the assigned
columns to the row by its primary key, whatever that row holds by then
(`AgentRun.flush`). `claim` and `_terminate` are conditional updates. Here
each is split into its read and its commit, and the commits of any number of
calls on one run come in any order (`program`). With nothing in between, a
read and its commit are the serial operation (`start_serial`, …).

Some races are decided by accident: a callback takes the number after the
one that was loaded, and where another commit has taken it the insertion
fails and the whole commit with it. That is what makes `finish` safe. Nothing
of the kind stops a stale `start`, `retry` or `cancel`: a cancelled run is
queued again (`cancelled_run_queued`). `FindsLoaded` says of a commit that it
finds the row as loaded; along runs whose commits meet it, nothing is lost
(`no_lost_update`).
-/

namespace AgentRuntime

open Keyed Fencing Runs Interleave

/-! ## What a commit sends -/

/-- A column after the flush: sent only where it was assigned another value
than the one loaded. -/
def flushed {α : Type} [DecidableEq α] (loaded dirty stored : α) : α :=
  if dirty = loaded then stored else dirty

/-- The stored row after the flush of an instance that was `loaded` and is
now `dirty`; the other columns are never assigned. -/
def AgentRun.flush (loaded dirty stored : AgentRun) : AgentRun :=
  { stored with
    status := flushed loaded.status dirty.status stored.status
    dispatchState := flushed loaded.dispatchState dirty.dispatchState stored.dispatchState
    errorCode := flushed loaded.errorCode dirty.errorCode stored.errorCode
    manualRetryCount :=
      flushed loaded.manualRetryCount dirty.manualRetryCount stored.manualRetryCount
    statusVersion := flushed loaded.statusVersion dirty.statusVersion stored.statusVersion
    lastEventSeq := flushed loaded.lastEventSeq dirty.lastEventSeq stored.lastEventSeq
    leaseOwner := flushed loaded.leaseOwner dirty.leaseOwner stored.leaseOwner
    leaseExpiresAt := flushed loaded.leaseExpiresAt dirty.leaseExpiresAt stored.leaseExpiresAt
    cancelRequestedAt :=
      flushed loaded.cancelRequestedAt dirty.cancelRequestedAt stored.cancelRequestedAt
    queuedAt := flushed loaded.queuedAt dirty.queuedAt stored.queuedAt
    finishedAt := flushed loaded.finishedAt dirty.finishedAt stored.finishedAt }

namespace Race

/-- Flush the instance into the stored row. -/
def flushRun (db : Db) (loaded dirty : AgentRun) : Result Db :=
  match db.runs.find? loaded.runId with
  | none => .error .integrity
  | some stored => pure { db with runs := db.runs.put (loaded.flush dirty stored) }

/-- Flush a callback; its number, and the counter flushed with it, follow
what was loaded. -/
def flushCallbackEvent (db : Db) (dirty : AgentRun) (event : String) : Result Db :=
  match db.callbackEvents.insert? (callbackOf dirty event), db.runs.find? dirty.runId with
  | some events, some stored =>
    pure { db with
      runs := db.runs.put { stored with lastEventSeq := dirty.lastEventSeq + 1 }
      callbackEvents := events
      outboxNew := db.outboxNew ++ [callbackDelivery dirty event] }
  | _, _ => .error .integrity

/-- The callback of a terminal status. -/
def flushCallback (db : Db) (dirty : AgentRun) (status : RunStatus) : Result Db := do
  let event ← terminalCallbackEvent status
  flushCallbackEvent db dirty event

/-! ## Reads -/

/-- What a call is asked to do to the run. -/
inductive RaceOp
  | start (resolver : Resolver) (callerId : String) (expected : Option Nat)
  | cancel (callerId : String)
  | retry (resolver : Resolver) (callerId : String) (allowAuditor : Bool) (expected : Option Nat)
  | claim (owner : String) (leaseSeconds : Nat)
  | finish (ctx : LeaseContext) (status : RunStatus) (errorCode : Option String)
  | terminate (status : RunStatus) (errorCode : String)

/-- A call that has loaded the row and has not committed yet, or is over. -/
structure RaceCall where
  op : RaceOp
  loaded : AgentRun
  closed : Bool := false

/-- The database as committed, and the clock. -/
structure Committed where
  db : Db
  clock : Time

/-- The row an operation goes on with after its read, if it has anything to
commit. -/
def load (id : String) (db : Db) (now : Time) : RaceOp → Option AgentRun
  | .start resolver callerId expected =>
    match AgentRunService.ownedRun db id callerId with
    | .error _ => none
    | .ok run =>
      match AgentRunService.startCheck db now resolver run expected with
      | .error _ => none
      | .ok () =>
        if run.dispatchState = .queued ∨ run.dispatchState = .claimed then none else some run
  | .cancel callerId =>
    match AgentRunService.ownedRun db id callerId with
    | .error _ => none
    | .ok run => some run
  | .retry resolver callerId allowAuditor expected =>
    match AgentRunService.ownedRun db id callerId allowAuditor with
    | .error _ => none
    | .ok run =>
      match AgentRunService.retryCheck db resolver run expected with
      | .error _ => none
      | .ok () => some run
  | .claim .. => db.runs.find? id
  | .finish ctx status _ =>
    (db.runs.find? id).filter (fun run => status.isTerminal ∧ Writable db now run ctx)
  -- the repairs terminate a run themselves only where no worker holds it
  | .terminate .. => (db.runs.find? id).filter (fun run => run.Unattended)

/-! ## Commits -/

/-- The commit of an operation that loaded `loaded`. -/
def commit (limits : AdmissionLimits) (db : Db) (now : Time) (loaded : AgentRun) :
    RaceOp → Result Db
  | .start .. => do
    let dirty := loaded.start now
    let db₁ ← flushRun db loaded dirty
    let db₂ ← transitionRun limits db₁ dirty (some .held) .queued
    pure (appendRunDispatch db₂ loaded.runId "explicit_start").commit
  | .cancel _ =>
    if loaded.Unattended then do
      let dirty := loaded.cancelNow now
      let db₁ ← flushRun db loaded dirty
      let db₂ ← transitionRun limits db₁ dirty (some loaded.dispatchState) .finished
      let db₃ ← flushCallback db₂ dirty .cancelled
      pure db₃.commit
    else do
      let db₁ ← flushRun db loaded (loaded.requestCancel now)
      pure db₁.commit
  | .retry .. => do
    let dirty := loaded.retry now
    let db₁ ← flushRun db loaded dirty
    let db₂ ← transitionRun limits db₁ dirty (some .finished) .queued
    pure (appendRunDispatch db₂ loaded.runId "manual_retry").commit
  | .claim owner leaseSeconds => do
    let (db', _) ← LeaseService.claim db now leaseSeconds loaded.runId owner
    pure db'
  | .finish _ status errorCode => do
    let dirty := loaded.endWith now status errorCode
    let db₁ ← flushRun db loaded dirty
    let db₂ ← transitionRun {} db₁ dirty (some .claimed) .finished
    let db₃ ← flushCallback db₂ dirty status
    pure db₃.commit
  | .terminate status errorCode => do
    let (db', _) ← ReconciliationService.terminate db now loaded status errorCode
    pure db'.commit

/-- Any number of calls on the run `id`; a commit that fails is rolled
back. -/
def program (limits : AdmissionLimits) (id : String) : Program Committed RaceCall RaceOp where
  wait s t := { s with clock := s.clock + t }
  call s op := (load id s.db s.clock op).map (fun run => { op := op, loaded := run })
  exec s call :=
    if call.closed then (s, call)
    else
      match commit limits s.db s.clock call.loaded call.op with
      | .error _ => (s, { call with closed := true })
      | .ok db => ({ s with db := db }, { call with closed := true })

/-! ## Undisturbed calls -/

theorem flushed_self {α : Type} [DecidableEq α] (loaded dirty : α) :
    flushed loaded dirty loaded = dirty := by
  unfold flushed
  split
  next h => exact h.symm
  · rfl

theorem flushed_same {α : Type} [DecidableEq α] (loaded stored : α) :
    flushed loaded loaded stored = stored :=
  if_pos rfl

theorem flushed_found {α : Type} [DecidableEq α] {loaded stored : α} (h : stored = loaded)
    (dirty : α) : flushed loaded dirty stored = dirty := by
  rw [h, flushed_self]

theorem flushed_other {α : Type} [DecidableEq α] {loaded dirty : α} (h : dirty ≠ loaded)
    (stored : α) : flushed loaded dirty stored = dirty :=
  if_neg h

/-- An instance that changed only columns the flush sends overwrites the row
it was loaded from. -/
theorem flushRun_undisturbed {db : Db} {loaded dirty : AgentRun}
    (hfind : db.runs.find? loaded.runId = some loaded)
    (hflush : loaded.flush dirty loaded = dirty) :
    flushRun db loaded dirty = .ok { db with runs := db.runs.put dirty } := by
  unfold flushRun
  rw [hfind]
  simp only [hflush]
  rfl

theorem flushCallback_undisturbed {db : Db} {dirty : AgentRun} {status : RunStatus}
    (hfind : db.runs.find? dirty.runId = some dirty) :
    flushCallback db dirty status = appendCallback db dirty status := by
  unfold flushCallback appendCallback
  cases hev : terminalCallbackEvent status with
  | error e => rfl
  | ok event =>
    have hmem := (terminalCallbackEvent_ok hev).2
    show flushCallbackEvent db dirty event = appendCallbackEvent db dirty event
    unfold flushCallbackEvent appendCallbackEvent
    rw [show require (event ∈ callbackEventTypes) (.value "CALLBACK_EVENT_TYPE_INVALID") = .ok ()
      from require_ok.mpr hmem, hfind]
    cases db.callbackEvents.insert? (callbackOf dirty event) <;> rfl

/-- The row a start goes on with. -/
theorem load_start {id callerId : String} {db : Db} {now : Time} {resolver : Resolver}
    {expected : Option Nat} {run : AgentRun}
    (h : load id db now (.start resolver callerId expected) = some run) :
    AgentRunService.ownedRun db id callerId = .ok run ∧
      AgentRunService.startCheck db now resolver run expected = .ok () ∧
      ¬ (run.dispatchState = .queued ∨ run.dispatchState = .claimed) := by
  simp only [load] at h
  split at h
  · cases h
  next run' hown =>
    split at h
    · cases h
    next hcheck =>
      split at h
      · cases h
      next hopen =>
        cases h
        exact ⟨hown, hcheck, hopen⟩

theorem load_retry {id callerId : String} {db : Db} {now : Time} {resolver : Resolver}
    {allowAuditor : Bool} {expected : Option Nat} {run : AgentRun}
    (h : load id db now (.retry resolver callerId allowAuditor expected) = some run) :
    AgentRunService.ownedRun db id callerId allowAuditor = .ok run ∧
      AgentRunService.retryCheck db resolver run expected = .ok () := by
  simp only [load] at h
  split at h
  · cases h
  next run' hown =>
    split at h
    · cases h
    next hcheck =>
      cases h
      exact ⟨hown, hcheck⟩

theorem load_cancel {id callerId : String} {db : Db} {now : Time} {run : AgentRun}
    (h : load id db now (.cancel callerId) = some run) :
    AgentRunService.ownedRun db id callerId = .ok run := by
  simp only [load] at h
  split at h
  · cases h
  next run' hown =>
    cases h
    exact hown

theorem load_finish {id : String} {db : Db} {now : Time} {ctx : LeaseContext}
    {status : RunStatus} {errorCode : Option String} {run : AgentRun}
    (h : load id db now (.finish ctx status errorCode) = some run) :
    db.runs.find? id = some run ∧ status.isTerminal = true ∧ Writable db now run ctx := by
  obtain ⟨hfind, hcond⟩ := Option.filter_eq_some_iff.mp h
  exact ⟨hfind, of_decide_eq_true hcond⟩

theorem load_terminate {id : String} {db : Db} {now : Time} {status : RunStatus}
    {errorCode : String} {run : AgentRun}
    (h : load id db now (.terminate status errorCode) = some run) :
    db.runs.find? id = some run ∧ run.Unattended := by
  obtain ⟨hfind, hcond⟩ := Option.filter_eq_some_iff.mp h
  exact ⟨hfind, of_decide_eq_true hcond⟩

/-- What is loaded is the row of the run. -/
theorem load_find {id : String} {db : Db} {now : Time} {op : RaceOp} {run : AgentRun}
    (h : load id db now op = some run) : db.runs.find? id = some run := by
  cases op with
  | start => exact ownedRun_ok (load_start h).1
  | cancel => exact ownedRun_ok (load_cancel h)
  | retry => exact ownedRun_ok (load_retry h).1
  | claim => exact h
  | finish => exact (load_finish h).1
  | terminate => exact (load_terminate h).1

/-- A start that nothing came between is the serial one. -/
theorem start_serial {limits : AdmissionLimits} {id callerId : String} {db : Db} {now : Time}
    {resolver : Resolver} {expected : Option Nat} {run : AgentRun}
    (h : load id db now (.start resolver callerId expected) = some run) :
    commit limits db now run (.start resolver callerId expected)
      = AgentRunService.start limits db now resolver id callerId expected := by
  obtain ⟨hown, hcheck, hopen⟩ := load_start h
  have hfind := load_find h
  have hid := Table.key_of_find? hfind
  have hflush : run.flush (run.start now) run = run.start now := by
    simp only [AgentRun.flush, flushed_self]
    rfl
  rw [← hid] at hfind
  unfold AgentRunService.start
  simp only [commit]
  rw [hown, flushRun_undisturbed hfind hflush]
  show _ = (AgentRunService.startCheck db now resolver run expected >>= fun _ => _)
  rw [hcheck]
  show _ = ite _ _ _
  rw [if_neg hopen, ← hid]
  rfl

theorem retry_serial {limits : AdmissionLimits} {id callerId : String} {db : Db} {now : Time}
    {resolver : Resolver} {allowAuditor : Bool} {expected : Option Nat} {run : AgentRun}
    (h : load id db now (.retry resolver callerId allowAuditor expected) = some run) :
    commit limits db now run (.retry resolver callerId allowAuditor expected)
      = AgentRunService.retry limits db now resolver id callerId allowAuditor expected := by
  obtain ⟨hown, hcheck⟩ := load_retry h
  have hfind := load_find h
  have hid := Table.key_of_find? hfind
  have hflush : run.flush (run.retry now) run = run.retry now := by
    simp only [AgentRun.flush, flushed_self]
    rfl
  rw [← hid] at hfind
  unfold AgentRunService.retry
  simp only [commit]
  rw [hown, flushRun_undisturbed hfind hflush]
  show _ = (AgentRunService.retryCheck db resolver run expected >>= fun _ => _)
  rw [hcheck, ← hid]
  rfl

/-- The row is still there after the transition of its slot. -/
theorem transitionRun_find {limits : AdmissionLimits} {db db' : Db} {run : AgentRun}
    {old : Option DispatchState} {new : DispatchState}
    (h : transitionRun limits db run old new = .ok db') : db'.runs = db.runs := by
  obtain ⟨_, rfl, _⟩ := transitionRun_ok h
  rfl

/-- After an undisturbed flush the callback is the serial one. -/
theorem closing_undisturbed (limits : AdmissionLimits) {db : Db} {run dirty : AgentRun}
    {source : Option DispatchState} {status : RunStatus} {β : Type} (k : Db → Result β)
    (hfind : db.runs.find? dirty.runId = some run) :
    (transitionRun limits { db with runs := db.runs.put dirty } dirty source .finished >>=
        fun db₂ => flushCallback db₂ dirty status >>= k)
      = (transitionRun limits { db with runs := db.runs.put dirty } dirty source .finished >>=
        fun db₂ => appendCallback db₂ dirty status >>= k) := by
  cases hadm : transitionRun limits { db with runs := db.runs.put dirty } dirty source .finished with
  | error e => rfl
  | ok db₂ =>
    have hruns := transitionRun_find hadm
    have hfind₂ : db₂.runs.find? dirty.runId = some dirty := by
      rw [hruns]
      exact Table.find?_put_self hfind
    show flushCallback db₂ dirty status >>= k = appendCallback db₂ dirty status >>= k
    rw [flushCallback_undisturbed hfind₂]

theorem cancel_serial {limits : AdmissionLimits} {id callerId : String} {db : Db} {now : Time}
    {run : AgentRun} (h : load id db now (.cancel callerId) = some run) :
    commit limits db now run (.cancel callerId)
      = AgentRunService.cancel limits db now id callerId := by
  have hown := load_cancel h
  have hfind := load_find h
  have hid := Table.key_of_find? hfind
  rw [← hid] at hfind
  unfold AgentRunService.cancel
  simp only [commit]
  rw [hown]
  show _ = ite _ _ _
  by_cases hun : run.Unattended
  · have hflush : run.flush (run.cancelNow now) run = run.cancelNow now := by
      simp only [AgentRun.flush, flushed_self]
      rfl
    rw [if_pos hun, if_pos hun, flushRun_undisturbed hfind hflush]
    exact closing_undisturbed limits (fun db => pure db.commit) hfind
  · have hflush : run.flush (run.requestCancel now) run = run.requestCancel now := by
      simp only [AgentRun.flush, flushed_self]
      rfl
    rw [if_neg hun, if_neg hun, flushRun_undisturbed hfind hflush]
    rfl

theorem finish_serial {limits : AdmissionLimits} {id : String} {db : Db} {now : Time}
    {ctx : LeaseContext} {status : RunStatus} {errorCode : Option String} {run : AgentRun}
    (h : load id db now (.finish ctx status errorCode) = some run) :
    commit limits db now run (.finish ctx status errorCode)
      = (LeaseService.finish db now ⟨id, status, errorCode⟩ ctx).map Prod.fst := by
  obtain ⟨hfind, hterm, hw⟩ := load_finish h
  have hid := Table.key_of_find? hfind
  have hflush : run.flush (run.endWith now status errorCode) run
      = run.endWith now status errorCode := by
    simp only [AgentRun.flush, flushed_self]
    rfl
  unfold LeaseService.finish
  simp only [commit, hfind]
  rw [← hid] at hfind
  rw [if_pos ⟨hterm, hw⟩, flushRun_undisturbed hfind hflush]
  have hfind' : db.runs.find? (run.endWith now status errorCode).runId = some run := hfind
  refine (closing_undisturbed {} (fun db => pure db.commit) hfind').trans ?_
  cases transitionRun {} { db with runs := db.runs.put (run.endWith now status errorCode) }
    (run.endWith now status errorCode) (some .claimed) .finished with
  | error e => rfl
  | ok db₂ =>
    show (appendCallback db₂ (run.endWith now status errorCode) status >>= fun db => pure db.commit)
      = (appendCallback db₂ (run.endWith now status errorCode) status >>=
        fun db => pure (db.commit, true)).map Prod.fst
    cases appendCallback db₂ (run.endWith now status errorCode) status <;> rfl

/-! ## What a commit does -/

/-- The slot of the run, the status it may then have, and its callbacks: what
a commit that succeeds does to the row. -/
inductive Change (cur r' : AgentRun) : Option (DispatchState × DispatchState) → Prop
  | quiet (hs : r'.status = cur.status) (hd : r'.dispatchState = cur.dispatchState)
      (hl : r'.leaseExpiresAt = cur.leaseExpiresAt) (hq : r'.lastEventSeq = cur.lastEventSeq) :
      Change cur r' none
  | queued (old : DispatchState) (hold : cur.dispatchState = old)
      (hopen : old = .held ∨ old = .finished) (hs : r'.status = .pending)
      (hd : r'.dispatchState = .queued) (hl : r'.leaseExpiresAt = cur.leaseExpiresAt)
      (hq : r'.lastEventSeq = cur.lastEventSeq) : Change cur r' (some (old, .queued))
  | claimed (hold : cur.dispatchState = .queued) (hs : r'.status = cur.status)
      (hd : r'.dispatchState = .claimed) (hq : r'.lastEventSeq = cur.lastEventSeq) :
      Change cur r' (some (.queued, .claimed))
  | closed (old : DispatchState) (hold : cur.dispatchState = old)
      (hs : r'.status.isTerminal = true) (hd : r'.dispatchState = .finished)
      (hl : r'.leaseExpiresAt = none ∨
        (old ≠ .claimed ∧ r'.leaseExpiresAt = cur.leaseExpiresAt))
      (hq : r'.lastEventSeq = cur.lastEventSeq + 1) : Change cur r' (some (old, .finished))

/-- The ledger entries of a shift. -/
def Logged (id : String) (db db' : Db) : Option (DispatchState × DispatchState) → Prop
  | none => db'.admissionLog = db.admissionLog
  | some (old, new) => ∃ m : AdmissionMove, db'.admissionLog = db.admissionLog ++ [m] ∧
      m.runId = id ∧ m.source = some old ∧ m.target = new

/-- The callback with number `n` is there. -/
def Numbered (db : Db) (id : String) (n : Nat) : Prop :=
  (db.callbackEvents.find? (id, n)).isSome = true

/-- A commit as the run `id` sees it. -/
structure Effect (id : String) (db db' : Db) (cur r' : AgentRun)
    (shift : Option (DispatchState × DispatchState)) : Prop where
  found : db.runs.find? id = some cur
  found' : db'.runs.find? id = some r'
  change : Change cur r' shift
  logged : Logged id db db' shift
  kept : ∀ n, Numbered db id n → Numbered db' id n
  added : r'.lastEventSeq = cur.lastEventSeq + 1 → Numbered db' id r'.lastEventSeq

theorem flushRun_ok {db db' : Db} {loaded dirty : AgentRun}
    (h : flushRun db loaded dirty = .ok db') :
    ∃ cur, db.runs.find? loaded.runId = some cur ∧
      db' = { db with runs := db.runs.put (loaded.flush dirty cur) } := by
  unfold flushRun at h
  split at h
  · cases h
  next cur hfind =>
    cases h
    exact ⟨cur, hfind, rfl⟩

theorem flushCallback_ok {db db' : Db} {dirty : AgentRun} {status : RunStatus}
    (h : flushCallback db dirty status = .ok db') :
    status.isTerminal = true ∧ ∃ event events cur,
      db.callbackEvents.insert? (callbackOf dirty event) = some events ∧
      db.runs.find? dirty.runId = some cur ∧
      db' = { db with
        runs := db.runs.put { cur with lastEventSeq := dirty.lastEventSeq + 1 }
        callbackEvents := events
        outboxNew := db.outboxNew ++ [callbackDelivery dirty event] } := by
  obtain ⟨event, hev, h⟩ := bind_ok.mp h
  refine ⟨(terminalCallbackEvent_ok hev).1, event, ?_⟩
  unfold flushCallbackEvent at h
  split at h
  next events cur hins hfind =>
    cases h
    exact ⟨events, cur, hins, hfind, rfl⟩
  · cases h

/-- The next number of the loaded row is free only as long as no callback
was added. -/
theorem seq_eq {db : Db} {loaded dirty cur : AgentRun} {event : String} {events : CallbackTable}
    (hid : dirty.runId = loaded.runId) (hseq : dirty.lastEventSeq = loaded.lastEventSeq)
    (hle : loaded.lastEventSeq ≤ cur.lastEventSeq)
    (hnum : ∀ n, 1 ≤ n → n ≤ cur.lastEventSeq → Numbered db loaded.runId n)
    (hins : db.callbackEvents.insert? (callbackOf dirty event) = some events) :
    cur.lastEventSeq = loaded.lastEventSeq := by
  by_contra hne
  have htaken := hnum (loaded.lastEventSeq + 1) (by omega) (by omega)
  obtain ⟨hfree, _⟩ := Table.insert?_eq_some.mp hins
  have hkey : (callbackOf dirty event).key = (loaded.runId, loaded.lastEventSeq + 1) := by
    rw [← hid, ← hseq]
    rfl
  rw [hkey] at hfree
  unfold Numbered at htaken
  rw [hfree] at htaken
  cases htaken

theorem numbered_insert {db : Db} {e : CallbackEvent} {events : CallbackTable} {id : String}
    (hins : db.callbackEvents.insert? e = some events) {n : Nat}
    (h : Numbered db id n ∨ (id, n) = e.key) : (events.find? (id, n)).isSome = true := by
  rw [Table.find?_insert? hins]
  split
  · rfl
  next hne => exact h.resolve_right hne

/-- A commit that queues the run: the flush, the slot and the dispatch. -/
theorem opened_effect {limits : AdmissionLimits} {db db' : Db} {loaded dirty : AgentRun}
    {old : DispatchState} {reason : String}
    (h : (flushRun db loaded dirty >>= fun db₁ =>
      transitionRun limits db₁ dirty (some old) .queued >>= fun db₂ =>
      pure (appendRunDispatch db₂ loaded.runId reason).commit) = Except.ok db')
    (hid : dirty.runId = loaded.runId)
    (hchange : ∀ cur, db.runs.find? loaded.runId = some cur →
      Change cur (loaded.flush dirty cur) (some (old, .queued))) :
    ∃ cur r' shift, Effect loaded.runId db db' cur r' shift := by
  obtain ⟨db₁, hflush, h⟩ := bind_ok.mp h
  obtain ⟨db₂, hadm, h⟩ := bind_ok.mp h
  cases h
  obtain ⟨cur, hfind, rfl⟩ := flushRun_ok hflush
  obtain ⟨_, rfl, _⟩ := transitionRun_ok hadm
  have hcur := Table.key_of_find? hfind
  have hkey : (loaded.flush dirty cur).runId = loaded.runId := hcur
  have hc := hchange cur hfind
  refine ⟨cur, loaded.flush dirty cur, _, hfind, ?_, hc, ⟨_, rfl, hid, rfl, rfl⟩, fun _ h => h, ?_⟩
  · rw [← hkey] at hfind ⊢
    exact Table.find?_put_self hfind
  · intro hseq
    cases hc with
    | queued _ _ _ _ _ _ hq => exact absurd (hq.symm.trans hseq) (by omega)

/-- A commit that ends the run: the flush, the slot and the callback. -/
theorem closed_effect {limits : AdmissionLimits} {db db' : Db} {loaded dirty : AgentRun}
    {old : DispatchState} {status : RunStatus}
    (h : (flushRun db loaded dirty >>= fun db₁ =>
      transitionRun limits db₁ dirty (some old) .finished >>= fun db₂ =>
      flushCallback db₂ dirty status >>= fun db₃ => pure db₃.commit) = Except.ok db')
    (hid : dirty.runId = loaded.runId) (hseq : dirty.lastEventSeq = loaded.lastEventSeq)
    (hle : ∀ cur, db.runs.find? loaded.runId = some cur → loaded.lastEventSeq ≤ cur.lastEventSeq)
    (hnum : ∀ cur, db.runs.find? loaded.runId = some cur →
      ∀ n, 1 ≤ n → n ≤ cur.lastEventSeq → Numbered db loaded.runId n)
    (hchange : ∀ cur, db.runs.find? loaded.runId = some cur →
      cur.lastEventSeq = loaded.lastEventSeq →
      Change cur { loaded.flush dirty cur with lastEventSeq := cur.lastEventSeq + 1 }
        (some (old, .finished))) :
    ∃ cur r' shift, Effect loaded.runId db db' cur r' shift := by
  obtain ⟨db₁, hflush, h⟩ := bind_ok.mp h
  obtain ⟨db₂, hadm, h⟩ := bind_ok.mp h
  obtain ⟨db₃, hcb, h⟩ := bind_ok.mp h
  cases h
  obtain ⟨cur, hfind, rfl⟩ := flushRun_ok hflush
  obtain ⟨_, rfl, _⟩ := transitionRun_ok hadm
  obtain ⟨_, event, events, row, hins, hrow, rfl⟩ := flushCallback_ok hcb
  have hcur := Table.key_of_find? hfind
  have hkey : (loaded.flush dirty cur).runId = loaded.runId := hcur
  have hput : (db.runs.put (loaded.flush dirty cur)).find? loaded.runId
      = some (loaded.flush dirty cur) := by
    rw [← hkey] at hfind ⊢
    exact Table.find?_put_self hfind
  -- the row the callback finds is the one just flushed
  rw [hid] at hrow
  cases hput.symm.trans hrow
  have hsame : cur.lastEventSeq = loaded.lastEventSeq :=
    seq_eq hid hseq (hle cur hfind) (hnum cur hfind) hins
  have hc := hchange cur hfind hsame
  rw [hseq, ← hsame]
  refine ⟨cur, _, _, hfind, ?_, hc, ⟨_, rfl, hid, rfl, rfl⟩, fun n hn => ?_, fun _ => ?_⟩
  · rw [← hkey] at hput ⊢
    exact Table.find?_put_self hput
  · exact numbered_insert hins (Or.inl hn)
  · refine numbered_insert hins (Or.inr ?_)
    show (loaded.runId, cur.lastEventSeq + 1) = (dirty.runId, dirty.lastEventSeq + 1)
    rw [hid, hseq, hsame]

/-- A claim takes a queued run, or does nothing. -/
theorem claim_effect {db db' : Db} {now : Time} {loaded cur : AgentRun} {owner : String}
    {leaseSeconds : Nat} {limits : AdmissionLimits}
    (hfind : db.runs.find? loaded.runId = some cur)
    (h : commit limits db now loaded (.claim owner leaseSeconds) = .ok db') :
    ∃ cur r' shift, Effect loaded.runId db db' cur r' shift := by
  obtain ⟨⟨db₁, ctx?⟩, hclaim, h⟩ := bind_ok.mp h
  cases h
  unfold LeaseService.claim at hclaim
  rw [hfind] at hclaim
  simp only at hclaim
  split at hclaim
  next hc =>
    obtain ⟨db₂, hadm, hclaim⟩ := bind_ok.mp hclaim
    cases hclaim
    obtain ⟨_, rfl, _⟩ := transitionRun_ok hadm
    have hkey := Table.key_of_find? hfind
    refine ⟨cur, cur.claimBy now leaseSeconds owner, _, hfind, ?_, .claimed hc.1 rfl rfl rfl,
      ⟨_, rfl, hkey, rfl, rfl⟩, fun _ h => h, fun hseq => absurd hseq ?_⟩
    · rw [← hkey] at hfind ⊢
      exact Table.find?_put_self (a := cur.claimBy now leaseSeconds owner) hfind
    · exact Nat.ne_of_lt (Nat.lt_succ_self _)
  · cases hclaim
    exact ⟨cur, cur, _, hfind, hfind, .quiet rfl rfl rfl rfl, rfl, fun _ h => h,
      fun hseq => absurd hseq (Nat.ne_of_lt (Nat.lt_succ_self _))⟩

/-- The reconciler ends an unattended run, or does nothing. -/
theorem terminate_effect {db db' : Db} {now : Time} {loaded cur : AgentRun} {status : RunStatus}
    {errorCode : String} {limits : AdmissionLimits}
    (hfind : db.runs.find? loaded.runId = some cur) (hun : loaded.Unattended)
    (h : commit limits db now loaded (.terminate status errorCode) = .ok db') :
    ∃ cur r' shift, Effect loaded.runId db db' cur r' shift := by
  obtain ⟨⟨db₁, b⟩, hterm, h⟩ := bind_ok.mp h
  cases h
  unfold ReconciliationService.terminate at hterm
  rw [hfind] at hterm
  simp only at hterm
  split at hterm
  next hsame =>
    obtain ⟨db₂, hadm, hterm⟩ := bind_ok.mp hterm
    obtain ⟨db₃, hcb, hterm⟩ := bind_ok.mp hterm
    cases hterm
    obtain ⟨_, rfl, _⟩ := transitionRun_ok hadm
    obtain ⟨event, hev, hcb⟩ := appendCallback_ok hcb
    obtain ⟨events, hins, rfl⟩ := appendCallbackEvent_ok hcb
    have hkey := Table.key_of_find? hfind
    have hput : (db.runs.put (cur.terminate now status errorCode)).find? loaded.runId
        = some (cur.terminate now status errorCode) := by
      rw [← hkey] at hfind ⊢
      exact Table.find?_put_self (a := cur.terminate now status errorCode) hfind
    have hold : loaded.dispatchState ≠ .claimed := by
      rcases hun with hd | hd | ⟨_, hd⟩ <;> rw [hd] <;> simp
    refine ⟨cur, (cur.terminate now status errorCode).nextEvent, _, hfind, ?_,
      .closed loaded.dispatchState hsame.2.1 (terminalCallbackEvent_ok hev).1 rfl
        (Or.inr ⟨hold, rfl⟩) rfl,
      ⟨_, rfl, hkey, rfl, rfl⟩, fun n hn => numbered_insert hins (Or.inl hn), fun _ => ?_⟩
    · rw [← hkey] at hput ⊢
      exact Table.find?_put_self (a := (cur.terminate now status errorCode).nextEvent) hput
    · refine numbered_insert hins (Or.inr ?_)
      rw [← hkey]
      rfl
  · cases hterm
    exact ⟨cur, cur, _, hfind, hfind, .quiet rfl rfl rfl rfl, rfl, fun _ h => h,
      fun hseq => absurd hseq (Nat.ne_of_lt (Nat.lt_succ_self _))⟩

/-! ## Assertions -/

/-- The row is in the status and dispatch state the call has loaded. -/
def AsLoaded (s : Committed) (c : RaceCall) : Prop :=
  ∀ cur ∈ s.db.runs.find? c.loaded.runId,
    cur.status = c.loaded.status ∧ cur.dispatchState = c.loaded.dispatchState

/-- A start, a retry, or a cancel that ends the run itself commits on the row
it has loaded; a cancel may also find its callback number taken, and fail. -/
def FindsLoaded (s : Committed) (c : RaceCall) : Prop :=
  match c.op with
  | .start .. | .retry .. => c.closed = false → AsLoaded s c
  | .cancel _ => c.closed = false → c.loaded.Unattended →
      (∀ cur ∈ s.db.runs.find? c.loaded.runId, cur.lastEventSeq = c.loaded.lastEventSeq) →
      AsLoaded s c
  | .claim .. | .finish .. | .terminate .. => True

instance (s : Committed) (c : RaceCall) : Decidable (AsLoaded s c) := by
  unfold AsLoaded; infer_instance

instance (s : Committed) (c : RaceCall) : Decidable (FindsLoaded s c) :=
  match h : c.op with
  | .start .. | .retry .. =>
    decidable_of_iff (c.closed = false → AsLoaded s c) (by unfold FindsLoaded; rw [h])
  | .cancel _ =>
    decidable_of_iff (c.closed = false → c.loaded.Unattended →
      (∀ cur ∈ s.db.runs.find? c.loaded.runId, cur.lastEventSeq = c.loaded.lastEventSeq) →
      AsLoaded s c) (by unfold FindsLoaded; rw [h])
  | .claim .. | .finish .. | .terminate .. =>
    isTrue (by unfold FindsLoaded; rw [h]; trivial)

/-- What a call knows of the row it has loaded, and of the row since. -/
structure Sound (id : String) (s : Committed) (c : RaceCall) : Prop where
  runId : c.loaded.runId = id
  seq : ∀ cur, s.db.runs.find? id = some cur → c.loaded.lastEventSeq ≤ cur.lastEventSeq
  op : match c.op with
    | .start .. => c.loaded.dispatchState = .held ∧ c.loaded.status = .pending
    | .retry .. => c.loaded.status.isTerminal = true
    | .finish _ status _ => status.isTerminal = true ∧ c.loaded.dispatchState = .claimed ∧
        c.loaded.status.isTerminal = false ∧ c.loaded.leaseExpiresAt ≠ none ∧
        ∀ cur, s.db.runs.find? id = some cur → cur.lastEventSeq = c.loaded.lastEventSeq →
          cur.dispatchState = .claimed
    | .terminate .. => c.loaded.Unattended
    | .cancel _ | .claim .. => True

/-- The run's slots of a state taken in the ledger from `base` on. -/
def taken (base : Nat) (id : String) (db : Db) (k : DispatchState) : Nat :=
  (db.admissionLog.drop base).countP (fun m => decide (m.runId = id ∧ m.target = k))

/-- The run's slots of a state released in the ledger from `base` on. -/
def released (base : Nat) (id : String) (db : Db) (k : DispatchState) : Nat :=
  (db.admissionLog.drop base).countP (fun m => decide (m.runId = id ∧ m.source = some k))

/-- The row is consistent, its callbacks are numbered through, and every slot
it took it holds or has released once. -/
structure Whole (base : Nat) (id : String) (db : Db) (run : AgentRun) : Prop where
  lifecycle : run.Lifecycle
  lease : run.dispatchState ≠ .claimed → run.leaseExpiresAt = none
  numbered : ∀ n, 1 ≤ n → n ≤ run.lastEventSeq → Numbered db id n
  logged : base ≤ db.admissionLog.length
  slots : ∀ k, k ≠ .finished →
    taken base id db k = released base id db k + (if run.dispatchState = k then 1 else 0)

/-- The row is there and whole. -/
def Kept (base : Nat) (id : String) (s : Committed) : Prop :=
  ∃ run, s.db.runs.find? id = some run ∧ Whole base id s.db run

/-! ## Every commit keeps them -/

theorem Change.lifecycle {cur r' : AgentRun} {shift : Option (DispatchState × DispatchState)}
    (h : Change cur r' shift) (hl : cur.Lifecycle) : r'.Lifecycle := by
  unfold AgentRun.Lifecycle at hl ⊢
  cases h with
  | quiet hs hd _ _ =>
    rw [hs, hd]
    exact hl
  | queued _ _ _ hs hd _ _ =>
    rw [hd]
    exact Or.inl hs
  | claimed hold hs hd _ =>
    rw [hold] at hl
    rw [hd]
    show r'.status.isTerminal = false
    rw [hs]
    rcases hl with hp | hp <;> rw [hp] <;> rfl
  | closed _ _ hs hd _ _ =>
    rw [hd]
    exact Or.inl hs

theorem Change.lease {cur r' : AgentRun} {shift : Option (DispatchState × DispatchState)}
    (h : Change cur r' shift)
    (hl : cur.dispatchState ≠ .claimed → cur.leaseExpiresAt = none) :
    r'.dispatchState ≠ .claimed → r'.leaseExpiresAt = none := by
  intro hne
  cases h with
  | quiet _ hd hlease _ =>
    rw [hlease]
    exact hl (by rw [← hd]; exact hne)
  | queued _ hold hopen _ _ hlease _ =>
    rw [hlease]
    refine hl ?_
    rcases hopen with hopen | hopen <;> rw [hold, hopen] <;> simp
  | claimed _ _ hd _ => exact absurd hd hne
  | closed _ hold _ _ hlease _ =>
    rcases hlease with hnone | ⟨hopen, hsame⟩
    · exact hnone
    · rw [hsame]
      exact hl (by rw [hold]; exact hopen)

theorem Change.seq_le {cur r' : AgentRun} {shift : Option (DispatchState × DispatchState)}
    (h : Change cur r' shift) :
    r'.lastEventSeq = cur.lastEventSeq ∨ r'.lastEventSeq = cur.lastEventSeq + 1 := by
  cases h with
  | quiet _ _ _ hq => exact Or.inl hq
  | queued _ _ _ _ _ _ hq => exact Or.inl hq
  | claimed _ _ _ hq => exact Or.inl hq
  | closed _ _ _ _ _ hq => exact Or.inr hq

/-- Without a callback a claimed run stays claimed. -/
theorem Change.claimed_of_seq {cur r' : AgentRun}
    {shift : Option (DispatchState × DispatchState)} (h : Change cur r' shift)
    (hd : cur.dispatchState = .claimed) (hq : r'.lastEventSeq = cur.lastEventSeq) :
    r'.dispatchState = .claimed := by
  cases h with
  | quiet _ hsame _ _ => rw [hsame, hd]
  | queued _ hold hopen _ _ _ _ =>
    rw [hd] at hold
    rcases hopen with hopen | hopen <;> rw [← hold] at hopen <;> cases hopen
  | claimed _ _ hnew _ => exact hnew
  | closed _ _ _ _ _ hup => omega

theorem Effect.whole {base : Nat} {id : String} {db db' : Db} {cur r' : AgentRun}
    {shift : Option (DispatchState × DispatchState)} (h : Effect id db db' cur r' shift)
    (hw : Whole base id db cur) : Whole base id db' r' := by
  refine ⟨h.change.lifecycle hw.lifecycle, h.change.lease hw.lease, ?_, ?_, ?_⟩
  · intro n hpos hle
    rcases h.change.seq_le with hq | hq
    · exact h.kept n (hw.numbered n hpos (by omega))
    · by_cases hn : n = r'.lastEventSeq
      · rw [hn]
        exact h.added hq
      · exact h.kept n (hw.numbered n hpos (by omega))
  · have hlog := h.logged
    cases shift with
    | none =>
      rw [show db'.admissionLog = db.admissionLog from hlog]
      exact hw.logged
    | some shift =>
      obtain ⟨m, hm, _⟩ := hlog
      rw [hm, List.length_append]
      exact Nat.le_add_right_of_le hw.logged
  · intro k hk
    have hslots := hw.slots k hk
    have hlog := h.logged
    have hchange := h.change
    cases shift with
    | none =>
      cases hchange with
      | quiet _ hd _ _ =>
        unfold taken released at hslots ⊢
        rw [show db'.admissionLog = db.admissionLog from hlog, hd]
        exact hslots
    | some shift =>
      obtain ⟨old, new⟩ := shift
      obtain ⟨m, hm, hid, hsource, htarget⟩ := hlog
      have hold : cur.dispatchState = old ∧ r'.dispatchState = new := by
        cases hchange with
        | queued _ hold _ _ hd _ _ => exact ⟨hold, hd⟩
        | claimed hold _ hd _ => exact ⟨hold, hd⟩
        | closed _ hold _ hd _ _ => exact ⟨hold, hd⟩
      -- one entry is added: it takes `new` and releases `old`
      have hdrop : db'.admissionLog.drop base = db.admissionLog.drop base ++ [m] := by
        rw [hm, List.drop_append_of_le_length hw.logged]
      have htaken : taken base id db' k = taken base id db k + (if new = k then 1 else 0) := by
        unfold taken
        rw [hdrop, List.countP_append, List.countP_singleton]
        simp only [hid, htarget, true_and, decide_eq_true_eq]
      have hreleased : released base id db' k
          = released base id db k + (if old = k then 1 else 0) := by
        unfold released
        rw [hdrop, List.countP_append, List.countP_singleton]
        simp only [hid, hsource, true_and, Option.some.injEq, decide_eq_true_eq]
      rw [hold.1] at hslots
      rw [hold.2]
      omega

/-- What another commit leaves of what a call knows. -/
theorem Effect.sound {id : String} {s : Committed} {db' : Db} {cur r' : AgentRun}
    {shift : Option (DispatchState × DispatchState)} (h : Effect id s.db db' cur r' shift)
    {c : RaceCall} (hc : Sound id s c) : Sound id { s with db := db' } c := by
  have hle := hc.seq cur h.found
  have hup := h.change.seq_le
  refine ⟨hc.runId, ?_, ?_⟩
  · intro row hrow
    cases h.found'.symm.trans hrow
    omega
  · have hop := hc.op
    revert hop
    cases c.op with
    | finish ctx status errorCode =>
      rintro ⟨hterm, hd, hopen, hlease, hclaimed⟩
      refine ⟨hterm, hd, hopen, hlease, fun row hrow hq => ?_⟩
      cases h.found'.symm.trans hrow
      have hsame : cur.lastEventSeq = c.loaded.lastEventSeq := by omega
      exact h.change.claimed_of_seq (hclaimed cur h.found hsame) (by omega)
    | start | cancel | retry | claim | terminate => exact fun hop => hop

/-- Every commit that meets `FindsLoaded` changes the row in one of the ways
of `Change`. -/
theorem commit_effect {base : Nat} {limits : AdmissionLimits} {id : String} {s : Committed}
    {c : RaceCall} {db' : Db} (hk : Kept base id s) (hc : Sound id s c)
    (hfinds : FindsLoaded s c) (hclosed : c.closed = false)
    (h : commit limits s.db s.clock c.loaded c.op = .ok db') :
    ∃ cur r' shift, Effect id s.db db' cur r' shift := by
  obtain ⟨op, loaded, closed⟩ := c
  obtain ⟨row, hrow, hw⟩ := hk
  obtain ⟨hid, hseq, hop⟩ := hc
  cases hclosed
  have hcur : ∀ cur, s.db.runs.find? loaded.runId = some cur → cur = row := by
    intro cur hfind
    rw [show loaded.runId = id from hid, hrow] at hfind
    exact (Option.some.inj hfind).symm
  have hnum : ∀ cur, s.db.runs.find? loaded.runId = some cur →
      ∀ n, 1 ≤ n → n ≤ cur.lastEventSeq → Numbered s.db loaded.runId n := by
    intro cur hfind
    rw [hcur cur hfind, show loaded.runId = id from hid]
    exact hw.numbered
  subst hid
  simp only at hrow hseq hop
  show ∃ cur r' shift, Effect loaded.runId s.db db' cur r' shift
  cases op with
  | start resolver callerId expected =>
    simp only [commit] at h
    refine opened_effect h rfl (fun cur hfind => ?_)
    obtain ⟨hs, hd⟩ := hfinds rfl cur hfind
    simp only at hs hd
    refine .queued .held (hd.trans hop.1) (Or.inl rfl) ?_ (flushed_found hd _) (flushed_same _ _)
      (flushed_same _ _)
    exact (flushed_same _ _).trans (hs.trans hop.2)
  | retry resolver callerId allowAuditor expected =>
    simp only [commit] at h
    refine opened_effect h rfl (fun cur hfind => ?_)
    obtain ⟨hs, hd⟩ := hfinds rfl cur hfind
    simp only at hs hd
    have hl : cur.Lifecycle := by
      rw [hcur cur hfind]
      exact hw.lifecycle
    have hfin := hl.finished_of_terminal (by rw [hs]; exact hop)
    exact .queued .finished hfin (Or.inr rfl) (flushed_found hs _) (flushed_found hd _)
      (flushed_same _ _) (flushed_same _ _)
  | cancel callerId =>
    simp only [commit] at h
    split at h
    next hun =>
      refine closed_effect h rfl rfl hseq hnum (fun cur hfind hsame => ?_)
      obtain ⟨hs, hd⟩ := hfinds rfl hun (fun x hx => by cases hx.symm.trans hfind; exact hsame)
        cur hfind
      simp only at hs hd
      have hopen : loaded.dispatchState ≠ .claimed := by
        rcases hun with hd | hd | ⟨_, hd⟩ <;> rw [hd] <;> simp
      refine .closed loaded.dispatchState hd ?_ (flushed_found hd _)
        (Or.inr ⟨hopen, flushed_same _ _⟩) rfl
      show (flushed loaded.status .cancelled cur.status).isTerminal = true
      rw [flushed_found hs]
      rfl
    · -- a claimed run, or one that is over: only the request is written
      obtain ⟨db₁, hflush, h⟩ := bind_ok.mp h
      cases h
      obtain ⟨cur, hfind, rfl⟩ := flushRun_ok hflush
      have hkey := Table.key_of_find? hfind
      refine ⟨cur, loaded.flush (loaded.requestCancel s.clock) cur, _, hfind, ?_,
        .quiet (flushed_same _ _) (flushed_same _ _) (flushed_same _ _) (flushed_same _ _), rfl,
        fun _ h => h, fun hup => ?_⟩
      · rw [← hkey] at hfind ⊢
        exact Table.find?_put_self (a := loaded.flush (loaded.requestCancel s.clock) cur) hfind
      · rw [show (loaded.flush (loaded.requestCancel s.clock) cur).lastEventSeq
          = cur.lastEventSeq from flushed_same _ _] at hup
        omega
  | claim owner leaseSeconds => exact claim_effect hrow h
  | finish ctx status errorCode =>
    obtain ⟨hterm, hd, hopen, hlease, hclaimed⟩ := hop
    simp only [commit] at h
    refine closed_effect h rfl rfl hseq hnum (fun cur hfind hsame => ?_)
    refine .closed .claimed (hclaimed cur hfind hsame) ?_ ?_ (Or.inl ?_) rfl
    · have hne : status ≠ loaded.status := fun he => by
        rw [← he, hterm] at hopen
        cases hopen
      show (flushed loaded.status status cur.status).isTerminal = true
      rw [flushed_other hne]
      exact hterm
    · exact flushed_other (by rw [hd]; simp [AgentRun.endWith]) _
    · exact flushed_other (fun he => hlease he.symm) _
  | terminate status errorCode => exact terminate_effect hrow hop h

/-! ## The outline -/

/-- What a call knows when it has loaded the row. -/
theorem sound_load {base : Nat} {id : String} {s : Committed} {op : RaceOp} {run : AgentRun}
    (hk : Kept base id s) (h : load id s.db s.clock op = some run) :
    Sound id s { op := op, loaded := run } := by
  obtain ⟨row, hrow, hw⟩ := hk
  have hfind := load_find h
  cases hrow.symm.trans hfind
  refine ⟨Table.key_of_find? hfind, fun cur hcur => ?_, ?_⟩
  · cases hfind.symm.trans hcur
    exact Nat.le_refl _
  · cases op with
    | start resolver callerId expected =>
      obtain ⟨_, hcheck, hopen⟩ := load_start h
      rcases (startCheck_ok hcheck).2.2 with hq | hc | hheld
      · exact absurd (Or.inl hq) hopen
      · exact absurd (Or.inr hc) hopen
      · exact hheld
    | retry resolver callerId allowAuditor expected =>
      obtain ⟨_, hcheck⟩ := load_retry h
      show run.status.isTerminal = true
      rcases (retryCheck_ok hcheck).1 with hs | hs <;> rw [hs] <;> rfl
    | finish ctx status errorCode =>
      obtain ⟨_, hterm, hwrite⟩ := load_finish h
      have hd := hwrite.1.1
      have hl := hw.lifecycle
      refine ⟨hterm, hd, ?_, ?_, fun cur hcur _ => ?_⟩
      · unfold AgentRun.Lifecycle at hl
        rw [hd] at hl
        exact hl
      · obtain ⟨t, ht, _⟩ := hwrite.2.2.1
        rw [ht]
        simp
      · cases hfind.symm.trans hcur
        exact hd
    | terminate status errorCode => exact (load_terminate h).2
    | cancel | claim => trivial

/-- A commit that runs succeeds, or leaves everything as it was. -/
theorem exec_cases (limits : AdmissionLimits) (id : String) (s : Committed) (c : RaceCall) :
    (((program limits id).exec s c).1 = s ∨
      (c.closed = false ∧ ∃ db', commit limits s.db s.clock c.loaded c.op = .ok db' ∧
        ((program limits id).exec s c).1 = { s with db := db' })) ∧
    ((program limits id).exec s c).2.op = c.op ∧
    ((program limits id).exec s c).2.loaded = c.loaded := by
  simp only [program]
  cases hclosed : c.closed with
  | true => exact ⟨Or.inl rfl, rfl, rfl⟩
  | false =>
    cases hcommit : commit limits s.db s.clock c.loaded c.op with
    | error e => exact ⟨Or.inl rfl, rfl, rfl⟩
    | ok db' => exact ⟨Or.inr ⟨rfl, db', rfl, rfl⟩, rfl, rfl⟩

theorem race_outline (base : Nat) (limits : AdmissionLimits) (id : String) :
    Outline (program limits id) FindsLoaded (Kept base id) (Sound id) where
  wait _ _ h := h
  waits _ _ _ h := ⟨h.runId, h.seq, h.op⟩
  call s op c hk hcall := by
    obtain ⟨run, hload, rfl⟩ := Option.map_eq_some_iff.mp hcall
    exact sound_load hk hload
  exec s c hk hc hfinds := by
    obtain ⟨hcases, hop, hloaded⟩ := exec_cases limits id s c
    -- the call knows after its commit what it knew before
    have hsame : ∀ {s' : Committed}, Sound id s' c → Sound id s' ((program limits id).exec s c).2 :=
      fun h => ⟨by rw [hloaded]; exact h.runId, by rw [hloaded]; exact h.seq,
        by rw [hop, hloaded]; exact h.op⟩
    rcases hcases with hs | ⟨hclosed, db', hcommit, hs⟩
    · rw [hs]
      exact ⟨hk, hsame hc⟩
    · obtain ⟨cur, r', shift, heffect⟩ := commit_effect hk hc hfinds hclosed hcommit
      obtain ⟨row, hrow, hw⟩ := hk
      cases hrow.symm.trans heffect.found
      rw [hs]
      exact ⟨⟨r', heffect.found', heffect.whole hw⟩, hsame (heffect.sound hc)⟩
  spares s c d hk hc hfinds hd := by
    rcases (exec_cases limits id s c).1 with hs | ⟨hclosed, db', hcommit, hs⟩
    · rw [hs]
      exact hd
    · obtain ⟨cur, r', shift, heffect⟩ := commit_effect hk hc hfinds hclosed hcommit
      rw [hs]
      exact heffect.sound hd

/-- A run that was just created is whole. -/
theorem kept_create {limits : AdmissionLimits} {db₀ db : Db} {now : Time}
    {id callerId tenantId : String} {command : CreateRunCommand} {authorizationVersion : Int}
    (h : AgentRunService.create limits db₀ now id command callerId tenantId authorizationVersion
      = .ok db) : Kept db₀.admissionLog.length id ⟨db, now⟩ := by
  obtain ⟨definition, policy, runs, db₁, plan, hins, hadm, _, hsame⟩ := create_ok h
  generalize hrun : newRun id command definition policy callerId tenantId authorizationVersion now
    = run at hins hadm
  have hid : run.runId = id := by rw [← hrun]; rfl
  have hlog : ∃ m : AdmissionMove, db.admissionLog = db₀.admissionLog ++ [m] ∧ m.runId = id ∧
      m.source = none ∧ m.target = run.dispatchState := by
    obtain ⟨_, rfl, _⟩ := transitionRun_ok hadm
    exact ⟨_, hsame.admissionLog, hid, rfl, rfl⟩
  have hrow : db.runs.find? id = some run := by
    rw [hsame.runs]
    show db₁.runs.find? id = some run
    rw [transitionRun_find hadm]
    exact (Table.find?_insert? hins id).trans (if_pos hid.symm)
  obtain ⟨m, hm, hmid, hsource, htarget⟩ := hlog
  refine ⟨run, hrow, ?_, ?_, ?_, ?_, ?_⟩
  · rw [← hrun]
    exact (streamInv_newRun id command definition policy callerId tenantId authorizationVersion
      now).lifecycle
  · intro _
    rw [← hrun]
    rfl
  · intro n hpos hle
    rw [show run.lastEventSeq = 0 by rw [← hrun]; rfl] at hle
    omega
  · rw [hm, List.length_append]
    exact Nat.le_add_right _ _
  · intro k hk
    have hdrop : db.admissionLog.drop db₀.admissionLog.length = [m] := by
      rw [hm, List.drop_left]
    unfold taken released
    rw [hdrop, List.countP_singleton, List.countP_singleton]
    simp only [hmid, hsource, htarget, true_and, decide_eq_true_eq, reduceCtorEq, decide_false,
      Bool.false_eq_true, if_false, Nat.zero_add]

/-! ## Nothing is lost -/

/-- No row is over and still queued or claimed, or finished and still leased;
and every slot the run took since its creation it holds or has released
once. -/
structure NoLostUpdate (base : Nat) (id : String) (s : Committed) : Prop where
  terminal : ∀ run, s.db.runs.find? id = some run → run.status.isTerminal = true →
    run.dispatchState ≠ .queued ∧ run.dispatchState ≠ .claimed
  leased : ∀ run, s.db.runs.find? id = some run → run.dispatchState = .finished →
    ¬ heldAfter run.leaseExpiresAt s.clock
  slots : ∀ run, s.db.runs.find? id = some run → ∀ k, k ≠ .finished →
    taken base id s.db k = released base id s.db k + (if run.dispatchState = k then 1 else 0)

theorem noLostUpdate_of_kept {base : Nat} {id : String} {s : Committed} (h : Kept base id s) :
    NoLostUpdate base id s := by
  obtain ⟨row, hrow, hw⟩ := h
  have hsame : ∀ run, s.db.runs.find? id = some run → run = row :=
    fun run hrun => Option.some.inj (hrun.symm.trans hrow)
  refine ⟨fun run hrun hterm => ?_, fun run hrun hfin => ?_, fun run hrun => ?_⟩
  · rw [hsame run hrun] at hterm ⊢
    rw [hw.lifecycle.finished_of_terminal hterm]
    simp
  · rw [hsame run hrun] at hfin ⊢
    rw [hw.lease (by rw [hfin]; simp)]
    exact not_heldAfter_none _
  · rw [hsame run hrun]
    exact hw.slots

/-- **No lost lifecycle update** over every interleaving of reads and commits
on a run in which each start, retry and ending cancel commits on the row it
has loaded. -/
theorem no_lost_update (limits : AdmissionLimits) {db₀ db : Db} {now : Time}
    {id callerId tenantId : String} {command : CreateRunCommand} {authorizationVersion : Int}
    (hcreate : AgentRunService.create limits db₀ now id command callerId tenantId
      authorizationVersion = .ok db)
    (es : List (Interleave.Event RaceOp))
    (h : Along (program limits id).step ((program limits id).Meets FindsLoaded)
      ⟨⟨db, now⟩, []⟩ es) :
    NoLostUpdate db₀.admissionLog.length id
      (Runs.run (program limits id).step ⟨⟨db, now⟩, []⟩ es).shared := by
  have hinit : Asserted (Kept db₀.admissionLog.length id) (Sound id)
      (⟨⟨db, now⟩, []⟩ : World Committed RaceCall) :=
    ⟨kept_create hcreate, fun c hc => absurd hc List.not_mem_nil⟩
  exact noLostUpdate_of_kept ((race_outline _ limits id).run es _ hinit h).1

/-- A held run, just created. -/
def heldRun : Db :=
  (AgentRunService.create {} { definitions := [samplePackage] } 0 "run-1" (sampleCommand .held)
    "caller" "tenant" 1).toOption.getD {}

theorem heldRun_created :
    AgentRunService.create {} { definitions := [samplePackage] } 0 "run-1" (sampleCommand .held)
      "caller" "tenant" 1 = .ok heldRun := rfl

/-- The context of the first claim, at second 0. -/
def firstContext : LeaseContext :=
  { executionAttempt := 1
    leaseOwner := "worker-1"
    fencingToken := 1
    leaseExpiresAt := seconds 90
    privacyVersion := 1
    authorizationVersion := 1 }

/-- A cancel of a claimed run commits while its worker is finishing it. -/
def cancelWhileFinishing : List (Interleave.Event RaceOp) :=
  [⟨0, .call (.start none "caller" none)⟩, ⟨0, .advance 0⟩,
   ⟨0, .call (.claim "worker-1" 90)⟩, ⟨0, .advance 1⟩,
   ⟨0, .call (.finish firstContext .succeeded none)⟩, ⟨0, .call (.cancel "caller")⟩,
   ⟨0, .advance 3⟩, ⟨0, .advance 2⟩]

theorem no_lost_update_finishing :
    NoLostUpdate 0 "run-1"
      (Runs.run (program {} "run-1").step ⟨⟨heldRun, 0⟩, []⟩ cancelWhileFinishing).shared :=
  no_lost_update {} heldRun_created cancelWhileFinishing (by decide)

/-- A start and a cancel have both loaded the held run; the cancel commits
first. -/
def cancelWhileStarting : List (Interleave.Event RaceOp) :=
  [⟨0, .call (.start none "caller" none)⟩, ⟨0, .call (.cancel "caller")⟩, ⟨0, .advance 1⟩,
   ⟨0, .advance 0⟩]

/-- The start queues the run it did not see cancelled. -/
theorem cancelled_run_queued :
    ¬ ∀ (limits : AdmissionLimits) (db₀ db : Db) (now : Time) (id callerId tenantId : String)
      (command : CreateRunCommand) (authorizationVersion : Int),
      AgentRunService.create limits db₀ now id command callerId tenantId authorizationVersion
        = .ok db →
      ∀ es, NoLostUpdate db₀.admissionLog.length id
        (Runs.run (program limits id).step ⟨⟨db, now⟩, []⟩ es).shared := by
  intro hall
  have hlost := hall {} _ heldRun 0 "run-1" _ _ _ _ heldRun_created cancelWhileStarting
  have hrow := hlost.terminal _ rfl (by decide)
  exact absurd hrow.1 (by decide)

end Race

end AgentRuntime
