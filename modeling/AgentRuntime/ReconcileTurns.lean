import AgentRuntime.Turns

/-!
# One turn of the reconciler

Every repair either leaves the database alone and says so, or does what one
of a few updates does: end an unattended run, ask a worker to stop, requeue a
run, replay its dispatch, purge it. `Repairs R` says so of a relation `R`
that those updates establish, and `repairRun_repairs` carries it through the
whole chain; `repairRun_turn` is the instance where `R` is one turn on the
run.

A repair that says it did nothing also tells why. For a run nobody executes
and that has not ended, the conditional update of `terminate` cannot miss,
so each guard must have been false: `repairRunDeadline_false` and the lemmas
after it. They are what `FallbackDue` collects, the condition under which a
turn puts a waiting run back into the queue.
-/

namespace AgentRuntime

open Keyed Fencing

namespace ReconciliationService

variable {R : Db → Db → Prop} {current now : Time} {resolver : Resolver}

/-- The repair did nothing and says so, or it says that it did something, and
establishes `R`. -/
def Repairs (R : Db → Db → Prop) (db : Db) (res : Result (Db × Bool)) : Prop :=
  ∀ db' b, res = .ok (db', b) → (b = false ∧ db' = db) ∨ (b = true ∧ R db db')

theorem repairs_nothing (db : Db) : Repairs R db (pure (db, false)) := by
  intro db' b h
  cases h
  exact Or.inl ⟨rfl, rfl⟩

theorem Repairs.imp {S : Db → Db → Prop} {db : Db} {res : Result (Db × Bool)}
    (h : Repairs R db res) (hRS : ∀ db', R db db' → S db db') : Repairs S db res := by
  intro db' b hok
  rcases h db' b hok with hno | ⟨hb, hR⟩
  · exact Or.inl hno
  · exact Or.inr ⟨hb, hRS db' hR⟩

theorem repairs_ite {db : Db} {c : Prop} [Decidable c] {a b : Result (Db × Bool)}
    (ha : c → Repairs R db a) (hb : ¬ c → Repairs R db b) :
    Repairs R db (if c then a else b) := by
  by_cases h : c
  · rw [if_pos h]
    exact ha h
  · rw [if_neg h]
    exact hb h

theorem orElse_ok {first : Result (Db × Bool)} {next : Db → Result (Db × Bool)} {db' : Db}
    {b : Bool} (h : orElse first next = .ok (db', b)) :
    (first = .ok (db', true) ∧ b = true) ∨
      ∃ db₁, first = .ok (db₁, false) ∧ next db₁ = .ok (db', b) := by
  obtain ⟨⟨db₁, b₁⟩, hfirst, h⟩ := bind_ok.mp h
  cases b₁ with
  | true =>
    cases h
    exact Or.inl ⟨hfirst, rfl⟩
  | false => exact Or.inr ⟨db₁, hfirst, h⟩

theorem repairs_orElse {db : Db} {first : Result (Db × Bool)}
    {next : Db → Result (Db × Bool)} (h₁ : Repairs R db first)
    (h₂ : first = .ok (db, false) → Repairs R db (next db)) :
    Repairs R db (orElse first next) := by
  intro db' b h
  rcases orElse_ok h with ⟨hfirst, rfl⟩ | ⟨db₁, hfirst, hnext⟩
  · exact h₁ db' true hfirst
  · rcases h₁ db₁ false hfirst with ⟨_, hdb⟩ | ⟨hb, _⟩
    · rw [hdb] at hfirst hnext
      exact h₂ hfirst db' b hnext
    · cases hb

/-! ## The repairs -/

/-- What the repairs write to a claimed run that has to stop. -/
inductive StopWrite (current : Time) : (AgentRun → AgentRun) → Prop
  | plain : StopWrite current (·.requestCancel current)
  | code (errorCode : String) : StopWrite current (·.requestCancelWith current errorCode)

/-- The updates that end or stop the run establish `R`. -/
structure Ends (R : Db → Db → Prop) (current : Time) (db : Db) (run : AgentRun) : Prop where
  terminate : ∀ status code, run.Unattended →
    Repairs R db (terminate db current run status code)
  stop : ∀ write, StopWrite current write → Repairs R db (pure (requestStop db run write))

theorem applyExecutionTimeout_repairs {db : Db} {run : AgentRun} (e : Ends R current db run)
    (code : String) : Repairs R db (applyExecutionTimeout db current run code) := by
  unfold applyExecutionTimeout
  refine repairs_ite (fun _ => repairs_nothing db) fun _ => ?_
  refine repairs_ite (fun _ => e.stop _ (.code code)) fun hcl => ?_
  refine repairs_ite (fun _ => repairs_nothing db) fun hfin => ?_
  apply e.terminate
  unfold AgentRun.Unattended
  rcases hd : run.dispatchState with _ | _ | _ | _
  · exact Or.inl rfl
  · exact Or.inr (Or.inl rfl)
  · exact absurd hd hcl
  · refine Or.inr (Or.inr ⟨?_, rfl⟩)
    by_contra hne
    exact hfin ⟨hd, hne⟩

theorem repairRunDeadline_repairs {db : Db} {run : AgentRun} (e : Ends R current db run) :
    Repairs R db (repairRunDeadline db current run) :=
  repairs_ite (fun _ => repairs_nothing db) fun _ => applyExecutionTimeout_repairs e _

theorem repairActiveElapsedTimeout_repairs {db : Db} {run : AgentRun} (e : Ends R current db run) :
    Repairs R db (repairActiveElapsedTimeout db current run) :=
  repairs_ite (fun _ => applyExecutionTimeout_repairs e _) fun _ => repairs_nothing db

theorem repairAuthorizationChanged_repairs {db : Db} {run : AgentRun} (e : Ends R current db run) :
    Repairs R db (repairAuthorizationChanged db current resolver run) :=
  repairs_ite (fun _ => repairs_nothing db) fun _ =>
    repairs_ite (fun hun => e.terminate _ _ hun) fun _ =>
      repairs_ite (fun _ => e.stop _ .plain) fun _ => repairs_nothing db

theorem repairRevokedDefinition_repairs {db : Db} {run : AgentRun} (e : Ends R current db run) :
    Repairs R db (repairRevokedDefinition db current run) :=
  repairs_ite (fun _ => repairs_nothing db) fun _ =>
    repairs_ite (fun hun => e.terminate _ _ hun) fun _ =>
      repairs_ite (fun _ => e.stop _ .plain) fun _ => repairs_nothing db

theorem repairHeldTimeout_repairs {db : Db} {run : AgentRun} (e : Ends R current db run) :
    Repairs R db (repairHeldTimeout db current run) :=
  repairs_ite (fun h => e.terminate _ _ (Or.inl h.2.1)) fun _ => repairs_nothing db

theorem repairQueuedTimeout_repairs {db : Db} {run : AgentRun} (e : Ends R current db run) :
    Repairs R db (repairQueuedTimeout db current run) :=
  repairs_ite (fun h => e.terminate _ _ (Or.inr (Or.inl h.2.1))) fun _ => repairs_nothing db

theorem repairWaitingHumanTimeout_repairs {db : Db} {run : AgentRun} (e : Ends R current db run)
    (hrequeue : run.status = .waitingHuman → run.dispatchState = .finished →
      isExpired run.waitingExpiresAt current = true → timeoutAction db run = some "fallback" →
      hasValidFallbackTarget db run = true →
      Repairs R db (requeueTimeoutFallback db current run)) :
    Repairs R db (repairWaitingHumanTimeout db current run) :=
  repairs_ite (fun h =>
    have hun : run.Unattended := Or.inr (Or.inr ⟨h.1, h.2.1⟩)
    repairs_ite (fun ha =>
      repairs_ite (fun ht => hrequeue h.1 h.2.1 h.2.2 ha ht)
        fun _ => e.terminate _ _ hun)
      fun _ => e.terminate _ _ hun)
    fun _ => repairs_nothing db

/-! ## Repairs that did nothing -/

/-- A run nobody executes and that has not ended. -/
def Idle (run : AgentRun) : Prop :=
  run.Unattended ∧ run.status.isTerminal = false

theorem unchanged_refl (run : AgentRun) : Unchanged run run :=
  ⟨rfl, rfl, rfl⟩

theorem terminate_hits {db db' : Db} {run : AgentRun} {status : RunStatus} {code : String}
    {b : Bool} (hfind : db.runs.find? run.runId = some run)
    (h : terminate db current run status code = .ok (db', b)) : b = true := by
  unfold terminate at h
  simp only [hfind, if_pos (unchanged_refl run)] at h
  obtain ⟨_, _, h⟩ := bind_ok.mp h
  obtain ⟨_, _, h⟩ := bind_ok.mp h
  cases h
  rfl

theorem Idle.not_claimed {run : AgentRun} (h : Idle run) : run.dispatchState ≠ .claimed := by
  rcases h.1 with hd | hd | hd
  · simp [hd]
  · simp [hd]
  · simp [hd.2]

theorem applyExecutionTimeout_hits {db db' : Db} {run : AgentRun} {code : String} {b : Bool}
    (hfind : db.runs.find? run.runId = some run) (hidle : Idle run)
    (h : applyExecutionTimeout db current run code = .ok (db', b)) : b = true := by
  unfold applyExecutionTimeout at h
  have hno : ¬ (run.dispatchState = .finished ∧ run.status ≠ .waitingHuman) := by
    rintro ⟨hd, hs⟩
    rcases hidle.1 with h₁ | h₁ | h₁
    · simp [h₁] at hd
    · simp [h₁] at hd
    · exact hs h₁.1
  rw [if_neg (by simp [hidle.2]), if_neg hidle.not_claimed, if_neg hno] at h
  exact terminate_hits hfind h

theorem repairRunDeadline_false {db db' : Db} {run : AgentRun}
    (hfind : db.runs.find? run.runId = some run) (hidle : Idle run)
    (h : repairRunDeadline db current run = .ok (db', false)) : current < run.runDeadlineAt := by
  unfold repairRunDeadline at h
  by_contra hno
  rw [if_neg hno] at h
  exact absurd (applyExecutionTimeout_hits hfind hidle h) (by simp)

theorem repairActiveElapsedTimeout_false {db db' : Db} {run : AgentRun}
    (hfind : db.runs.find? run.runId = some run) (hidle : Idle run)
    (h : repairActiveElapsedTimeout db current run = .ok (db', false)) :
    activeLimitReached db run = false := by
  unfold repairActiveElapsedTimeout at h
  by_contra hno
  rw [if_pos (by simpa using hno)] at h
  exact absurd (applyExecutionTimeout_hits hfind hidle h) (by simp)

theorem repairAuthorizationChanged_false {db db' : Db} {run : AgentRun}
    (hfind : db.runs.find? run.runId = some run) (hun : run.Unattended)
    (h : repairAuthorizationChanged db current resolver run = .ok (db', false)) :
    authorizationStale resolver run = false := by
  unfold repairAuthorizationChanged at h
  by_contra hno
  rw [if_neg (by simpa using hno), if_pos hun] at h
  exact absurd (terminate_hits hfind h) (by simp)

theorem repairRevokedDefinition_false {db db' : Db} {run : AgentRun}
    (hfind : db.runs.find? run.runId = some run) (hun : run.Unattended)
    (h : repairRevokedDefinition db current run = .ok (db', false)) :
    packageExecutable db run = true := by
  unfold repairRevokedDefinition at h
  by_contra hno
  rw [if_neg hno, if_pos hun] at h
  exact absurd (terminate_hits hfind h) (by simp)

/-! ## The whole turn -/

/-- A waiting run whose human gate has timed out into the fallback, and that
no earlier repair of the turn ends. -/
structure FallbackDue (db : Db) (now : Time) (resolver : Resolver) (run : AgentRun) : Prop where
  waiting : run.status = .waitingHuman
  finished : run.dispatchState = .finished
  expired : isExpired run.waitingExpiresAt now = true
  action : timeoutAction db run = some "fallback"
  target : hasValidFallbackTarget db run = true
  notPurging : run.privacyState ≠ .purgeRequested
  beforeDeadline : now < run.runDeadlineAt
  belowActiveLimit : activeLimitReached db run = false
  authorized : authorizationStale resolver run = false
  executable : packageExecutable db run = true

theorem repairPurge_false {db db' : Db} {run : AgentRun}
    (hfind : db.runs.find? run.runId = some run) (hd : run.dispatchState = .finished)
    (h : repairPurge db now run = .ok (db', false)) : run.privacyState ≠ .purgeRequested := by
  intro hp
  unfold repairPurge at h
  rw [if_pos ⟨hp, hd⟩] at h
  unfold AgentRunService.completePurge at h
  simp only [hfind, hp] at h
  cases h

/-- The updates of the whole turn establish `R`. -/
structure Updates (R : Db → Db → Prop) (current now : Time) (resolver : Resolver) (db : Db)
    (run : AgentRun) : Prop extends Ends R current db run where
  purge : Repairs R db (repairPurge db now run)
  missing : Repairs R db (pure (repairMissingRunDispatch db current run))
  requeue : (db.runs.find? run.runId = some run → FallbackDue db current resolver run) →
    Repairs R db (requeueTimeoutFallback db current run)

/-- **A turn of the reconciler** does nothing, or what one of its updates
does; it puts the run back into the queue only when the fallback is due. -/
theorem repairRun_repairs {db : Db} {run : AgentRun} (u : Updates R current now resolver db run) :
    Repairs R db (repairRun db current now resolver run) := by
  unfold repairRun
  have e := u.toEnds
  refine repairs_orElse u.purge fun h₀ => ?_
  refine repairs_orElse (repairRunDeadline_repairs e) fun h₁ => ?_
  refine repairs_orElse (repairActiveElapsedTimeout_repairs e) fun h₂ => ?_
  refine repairs_orElse (repairAuthorizationChanged_repairs e) fun h₃ => ?_
  refine repairs_orElse (repairRevokedDefinition_repairs e) fun h₄ => ?_
  refine repairs_orElse (repairHeldTimeout_repairs e) fun _ => ?_
  refine repairs_orElse (repairQueuedTimeout_repairs e) fun _ => ?_
  refine repairs_orElse u.missing fun _ => ?_
  refine repairWaitingHumanTimeout_repairs e fun hs hd hw ha ht => ?_
  have hidle : Idle run := ⟨Or.inr (Or.inr ⟨hs, hd⟩), by rw [hs]; rfl⟩
  exact u.requeue fun hfind => {
    waiting := hs
    finished := hd
    expired := hw
    action := ha
    target := ht
    notPurging := repairPurge_false hfind hd h₀
    beforeDeadline := repairRunDeadline_false hfind hidle h₁
    belowActiveLimit := repairActiveElapsedTimeout_false hfind hidle h₂
    authorized := repairAuthorizationChanged_false hfind hidle.1 h₃
    executable := repairRevokedDefinition_false hfind hidle.1 h₄ }

/-! ## What the updates do -/

/-- `_terminate` found the row as loaded, ended the run and filed the
callback. -/
def Terminates (current : Time) (loaded : AgentRun) (status : RunStatus) (code : String)
    (db db' : Db) : Prop :=
  ∃ run db₁, db.runs.find? loaded.runId = some run ∧ Unchanged loaded run ∧
    transitionRun {} { db with runs := db.runs.put (run.terminate current status code) }
      (run.terminate current status code) (some loaded.dispatchState) .finished = .ok db₁ ∧
    appendCallback db₁ (run.terminate current status code) status = .ok db'

theorem terminate_repairs (db : Db) (loaded : AgentRun) (status : RunStatus) (code : String) :
    Repairs (Terminates current loaded status code) db
      (terminate db current loaded status code) := by
  intro db' b h
  unfold terminate at h
  split at h
  · cases h
    exact Or.inl ⟨rfl, rfl⟩
  next run hfind =>
    split at h
    next hsame =>
      obtain ⟨db₁, hadm, h⟩ := bind_ok.mp h
      obtain ⟨db₂, hcb, h⟩ := bind_ok.mp h
      cases h
      exact Or.inr ⟨rfl, run, db₁, hfind, hsame, hadm, hcb⟩
    · cases h
      exact Or.inl ⟨rfl, rfl⟩

/-- `_requeue_timeout_fallback` found the row as loaded, queued the run and
its dispatch. -/
def Requeues (current : Time) (loaded : AgentRun) (db db' : Db) : Prop :=
  ∃ run db₁, db.runs.find? loaded.runId = some run ∧ run.status = loaded.status ∧
    run.dispatchState = .finished ∧
    transitionRun {} { db with runs := db.runs.put (run.requeueFallback current) }
      (run.requeueFallback current) (some .finished) .queued = .ok db₁ ∧
    db' = appendRunDispatch db₁ run.runId "waiting_human_timeout_fallback"

theorem requeueTimeoutFallback_repairs (db : Db) (loaded : AgentRun) :
    Repairs (Requeues current loaded) db (requeueTimeoutFallback db current loaded) := by
  intro db' b h
  unfold requeueTimeoutFallback at h
  split at h
  · cases h
    exact Or.inl ⟨rfl, rfl⟩
  next run hfind =>
    split at h
    next hsame =>
      obtain ⟨db₁, hadm, h⟩ := bind_ok.mp h
      cases h
      exact Or.inr ⟨rfl, run, db₁, hfind, hsame.1, hsame.2.1, hadm, rfl⟩
    · cases h
      exact Or.inl ⟨rfl, rfl⟩

/-- A claimed run was asked to stop. -/
def Stops (write : AgentRun → AgentRun) (loaded : AgentRun) (db db' : Db) : Prop :=
  ∃ run, db.runs.find? loaded.runId = some run ∧ run.dispatchState = .claimed ∧
    db' = { db with runs := db.runs.put (write run) }

theorem requestStop_repairs (db : Db) (loaded : AgentRun) (write : AgentRun → AgentRun) :
    Repairs (Stops write loaded) db (pure (requestStop db loaded write)) := by
  intro db' b h
  unfold requestStop at h
  split at h
  · cases h
    exact Or.inl ⟨rfl, rfl⟩
  next run hfind =>
    split at h
    next hsame =>
      cases h
      exact Or.inr ⟨rfl, run, hfind, hsame.2.1, rfl⟩
    · cases h
      exact Or.inl ⟨rfl, rfl⟩

/-- The private data of the run was wiped. -/
def Purges (now : Time) (runId : String) (db db' : Db) : Prop :=
  ∃ run, db.runs.find? runId = some run ∧ run.privacyState = .purgeRequested ∧
    db' = { db with
      runs := db.runs.put (run.purge now)
      checkpoints := db.checkpoints.filter (fun c => c.runId ≠ runId)
      steps := db.steps.map (fun s => if s.runId = runId then s.wiped else s) }

theorem repairPurge_repairs (db : Db) (run : AgentRun) :
    Repairs (fun db db' => run.dispatchState = .finished ∧ Purges now run.runId db db') db
      (repairPurge db now run) := by
  refine repairs_ite (fun hcond => ?_) fun _ => repairs_nothing db
  intro db' b h
  unfold AgentRunService.completePurge at h
  split at h
  · cases h
  next r hfind =>
    split at h
    · cases h
      exact Or.inl ⟨rfl, rfl⟩
    · cases h
    next hp =>
      cases h
      exact Or.inr ⟨rfl, hcond.2, r, hfind, hp, rfl⟩

/-- A pending queued run got a first dispatch, or its last one again. -/
def Redispatches (run : AgentRun) (db db' : Db) : Prop :=
  (dispatchEvents db run.runId = [] ∧
      db' = appendRunDispatch db run.runId "reconciliation_missing_dispatch") ∨
    (dispatchEvents db run.runId ≠ [] ∧
      db' = { db with outbox := replayLast (isDispatchOf run.runId) db.outbox })

theorem repairMissingRunDispatch_repairs (db : Db) (run : AgentRun) :
    Repairs (Redispatches run) db (pure (repairMissingRunDispatch db current run)) := by
  intro db' b h
  unfold repairMissingRunDispatch at h
  split at h
  · simp only at h
    split at h
    · cases h
      exact Or.inl ⟨rfl, rfl⟩
    · split at h
      · cases h
        exact Or.inl ⟨rfl, rfl⟩
      · split at h
        next hnil =>
          cases h
          exact Or.inr ⟨rfl, Or.inl ⟨hnil, rfl⟩⟩
        next hne =>
          cases h
          exact Or.inr ⟨rfl, Or.inr ⟨hne, rfl⟩⟩
  · cases h
    exact Or.inl ⟨rfl, rfl⟩

/-! ## As a turn on the run -/

section Turns

variable {limits : AdmissionLimits} {causes : Cause → AgentRun → Prop}

theorem unattended_of_unchanged {loaded run : AgentRun} (h : Unchanged loaded run) :
    run.Unattended ↔ loaded.Unattended := by
  unfold AgentRun.Unattended
  rw [h.1, h.2.1]

theorem terminate_turn (db : Db) (loaded : AgentRun) (status : RunStatus) (code : String)
    (hun : loaded.Unattended) :
    Repairs (Turn limits now causes loaded.runId) db (terminate db now loaded status code) := by
  refine (terminate_repairs db loaded status code).imp fun db' h => ?_
  obtain ⟨run, db₁, hfind, hsame, hadm, hcb⟩ := h
  obtain ⟨event, hev, hcb⟩ := appendCallback_ok hcb
  rw [← hsame.2.1] at hadm
  exact .move run _ _ (some event) hfind
    (.terminate ((unattended_of_unchanged hsame).mpr hun) status event hev code) db'
    (settle_both hadm hcb) (.refl _) fun hnot hpurged => absurd hpurged hnot

theorem requeueTimeoutFallback_turn (db : Db) (loaded : AgentRun)
    (hw : loaded.status = .waitingHuman)
    (hc : ∀ run, db.runs.find? loaded.runId = some run → causes .fallback run) :
    Repairs (Turn limits now causes loaded.runId) db (requeueTimeoutFallback db now loaded) := by
  refine (requeueTimeoutFallback_repairs db loaded).imp fun db' h => ?_
  obtain ⟨run, db₁, hfind, hs, hd, hadm, rfl⟩ := h
  exact .move run _ _ none hfind (.fallback (hs.trans hw) hd (hc run hfind)) db₁
    (settle_shift hadm) (sameLedger_dispatch db₁ _ _) fun hnot hpurged => absurd hpurged hnot

theorem requestStop_turn (db : Db) (loaded : AgentRun) (write : AgentRun → AgentRun)
    (hw : StopWrite now write) :
    Repairs (Turn limits now causes loaded.runId) db (pure (requestStop db loaded write)) := by
  refine (requestStop_repairs db loaded write).imp fun db' h => ?_
  obtain ⟨run, hfind, hd, rfl⟩ := h
  cases hw with
  | plain =>
    exact turn_put hfind (.requestCancel (by simp [AgentRun.Unattended, hd])) fun h => h
  | code errorCode => exact turn_put hfind (.stop hd errorCode) fun h => h

/-- Replaying an outbox row changes nothing the outbox delivers. -/
theorem replayLast_deliveries (p : RuntimeOutboxEvent → Bool) (q : String) :
    ∀ l : List RuntimeOutboxEvent,
      (((replayLast p l).filter (fun e => !e.isRunDispatch)).filter
        (fun e => decide (e.aggregateId = q))).map (·.payload)
      = ((l.filter (fun e => !e.isRunDispatch)).filter
        (fun e => decide (e.aggregateId = q))).map (·.payload)
  | [] => rfl
  | e :: rest => by
    have ih := replayLast_deliveries p q rest
    unfold replayLast
    split
    · have hr : (replayed e).isRunDispatch = e.isRunDispatch := rfl
      have ha : (replayed e).aggregateId = e.aggregateId := rfl
      have hp : (replayed e).payload = e.payload := rfl
      by_cases h₁ : e.isRunDispatch = true <;> by_cases h₂ : e.aggregateId = q <;>
        simp [hr, ha, hp, h₁, h₂]
    · by_cases h₁ : e.isRunDispatch = true <;> by_cases h₂ : e.aggregateId = q <;>
        simp only [List.filter_cons, h₁, h₂, ih, Bool.not_true, Bool.not_false, decide_true,
          decide_false, if_true, if_false, List.map_cons, Bool.false_eq_true]

theorem repairMissingRunDispatch_turn (db : Db) (run : AgentRun) :
    Repairs (Turn limits now causes run.runId) db
      (pure (repairMissingRunDispatch db now run)) := by
  refine (repairMissingRunDispatch_repairs db run).imp fun db' h => ?_
  rcases h with ⟨_, rfl⟩ | ⟨_, rfl⟩
  · exact .idle (sameLedger_dispatch _ _ _)
  · refine .idle ⟨rfl, rfl, rfl, fun q => ?_, rfl, rfl, fun q _ h => h.of_eq rfl rfl⟩
    have hrep := replayLast_deliveries (isDispatchOf run.runId) q db.outbox
    simp only [deliveriesOf, deliveries, List.filter_append, List.map_append, hrep]

/-- A purge leaves nothing of the run, and takes nothing from another. -/
theorem purges_veiled {db db' : Db} {runId : String} (h : Purges now runId db db') :
    Veiled db' runId ∧ ∀ q, Veiled db q → Veiled db' q := by
  obtain ⟨r, _, _, rfl⟩ := h
  have hnone : ∀ s : AgentStep, s.wiped.inputSummary = none ∧ s.wiped.outputSummary = none :=
    fun _ => ⟨rfl, rfl⟩
  refine ⟨⟨fun c hc => ?_, ?_⟩, fun q hq => ⟨fun c hc => ?_, ?_⟩⟩
  · exact of_decide_eq_true (List.mem_filter.mp hc).2
  · exact @wipe_rows _ _ _ _ _ (· = runId) _ _ _ hnone (.inl rfl)
  · exact hq.checkpoints c (List.mem_filter.mp hc).1
  · exact @wipe_rows _ _ _ _ _ (· = runId) _ _ _ hnone (.inr hq.steps)

theorem repairPurge_turn {db : Db} {run : AgentRun} (hrow : db.runs.find? run.runId = some run) :
    Repairs (Turn limits now causes run.runId) db (repairPurge db now run) := by
  refine (repairPurge_repairs db run).imp fun db' h => ?_
  obtain ⟨hd, hpurges⟩ := h
  obtain ⟨hgone, hveiled⟩ := purges_veiled hpurges
  obtain ⟨r, hfind, hp, rfl⟩ := hpurges
  refine .move r (r.purge now) none none hfind (.purge hp) _ (settle_quiet db _)
    ⟨rfl, rfl, rfl, fun _ => rfl, rfl, rfl, fun q _ hq => hveiled q (hq.of_eq rfl rfl)⟩
    fun _ _ => ⟨fun row hfind' => ?_, hgone⟩
  -- the row that was loaded is the one that is purged, and it is finished
  cases hrow.symm.trans hfind
  have hput : (db.runs.put (run.purge now)).find? run.runId = some (run.purge now) :=
    Table.find?_put_self (a := run.purge now) hfind
  cases hput.symm.trans hfind'
  show run.dispatchState ≠ .claimed
  rw [hd]
  decide

theorem repairRun_turn {db db' : Db} {run : AgentRun} {b : Bool}
    (hfind : db.runs.find? run.runId = some run)
    (hc : FallbackDue db now resolver run → causes .fallback run)
    (h : repairRun db now now resolver run = .ok (db', b)) :
    Turn limits now causes run.runId db db' := by
  have u : Updates (Turn limits now causes run.runId) now now resolver db run :=
    { terminate := terminate_turn db run
      stop := requestStop_turn db run
      purge := repairPurge_turn hfind
      missing := repairMissingRunDispatch_turn db run
      requeue := fun hdue =>
        requeueTimeoutFallback_turn db run (hdue hfind).waiting fun r hr => by
          cases hr.symm.trans hfind
          exact hc (hdue hfind) }
  rcases repairRun_repairs u db' b h with ⟨_, hdb⟩ | ⟨_, hturn⟩
  · rw [hdb]
    exact .idle (.refl _)
  · exact hturn

theorem repairDeadLetter_turn {db db' : Db} {event : RuntimeOutboxEvent}
    (h : repairDeadLetter db now event = .ok db') :
    Turn limits now causes event.aggregateId db db' := by
  unfold repairDeadLetter at h
  split at h
  · cases h
    exact .idle (.refl _)
  next run hfind =>
    split at h
    next hq =>
      obtain ⟨⟨db₁, b⟩, hterm, h⟩ := bind_ok.mp h
      cases h
      rw [← Table.key_of_find? hfind]
      rcases terminate_turn db run _ _ (Or.inr (Or.inl hq.2)) _ _ hterm with ⟨_, hdb⟩ | ⟨_, hturn⟩
      · rw [hdb]
        exact .idle (.refl _)
      · exact hturn
    · cases h
      exact .idle (.refl _)

end Turns

end ReconciliationService

end AgentRuntime
