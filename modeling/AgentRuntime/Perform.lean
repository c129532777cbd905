import AgentRuntime.ReconcileTurns

/-!
# What an operation does to one run

`perform_turn`: every operation but the reaper's is one turn; `perform_turns`:
every operation is a sequence of turns on different runs.
`perform_runStep`: seen from one run, it is nothing at all, the run's
creation, or one move with the callback that goes with it (`RunStep`). All
later invariants start from one of the two.

`Causes` ties the moves that re-queue or claim a run to the operation: which
it was, and what the row looked like before.
-/

namespace AgentRuntime

open Keyed Fencing

/-- The operation makes the move on this row: its checks let the row
through. -/
def CauseOf (db : Db) (now : Time) : Op → Cause → AgentRun → Prop
  | .claim id _ _, .claim, r => r.runId = id ∧ r.Claimable
  | .retry resolver id callerId allowAuditor expected, .retry, r =>
    AgentRunService.ownedRun db id callerId allowAuditor = .ok r ∧
      AgentRunService.retryCheck db resolver r expected = .ok ()
  | .approve id callerId decision expectedVersion, .approve, r =>
    AgentRunService.ownedRun db id callerId = .ok r ∧
      r.status = .waitingHuman ∧ r.dispatchState = .finished ∧
      r.statusVersion = expectedVersion ∧
      AgentRunService.assertFrozenPackageDefinition db r "approve" = .ok () ∧
      (decision = "approve" ∨ AgentRunService.rejectsToFallback db id = true)
  | .reapExpired, .reap, r =>
    r.dispatchState = .claimed ∧ r.LeaseExpired now ∧ packageExecutable db r = true
  | .repairRun id resolver, .fallback, r =>
    r.runId = id ∧ ReconciliationService.FallbackDue db now resolver r
  | _, _, _ => False

/-- The operation makes the move, on a row of the state before it. -/
def Causes (db : Db) (now : Time) (op : Op) (c : Cause) (r : AgentRun) : Prop :=
  db.runs.find? r.runId = some r ∧ CauseOf db now op c r

variable {limits : AdmissionLimits} {now : Time} {causes : Cause → AgentRun → Prop}

/-! ## Executor writes -/

/-- A run that a worker holds is not one that nobody holds. -/
theorem Unheld.ne {db : Db} {id q : String} {run : AgentRun} (hq : Unheld db q)
    (hfind : db.runs.find? id = some run) (hd : run.dispatchState = .claimed) :
    run.runId ≠ q := by
  intro heq
  have hid : run.runId = id := Table.key_of_find? hfind
  rw [← hid, heq] at hfind
  exact hq run hfind hd

/-- Steps that are changed, but for their run and their summaries. -/
theorem Veiled.map_steps {db : Db} {q : String} (h : Veiled db q) {f : AgentStep → AgentStep}
    (hf : ∀ s, (f s).runId = s.runId ∧ (f s).inputSummary = s.inputSummary ∧
      (f s).outputSummary = s.outputSummary) :
    Veiled { db with steps := db.steps.map f } q := by
  refine ⟨h.checkpoints, fun s hs hrun => ?_⟩
  obtain ⟨before, hmem, rfl⟩ := List.mem_map.mp hs
  obtain ⟨hid, hinput, houtput⟩ := hf before
  rw [hinput, houtput]
  exact h.steps before hmem (hid.symm.trans hrun)

/-- A checkpoint of another run. -/
theorem saveCheckpoint_veiled {db : Db} {run : AgentRun} {q : String} (ctx : LeaseContext)
    (key : String) (state : CheckpointState) (hne : run.runId ≠ q) (h : Veiled db q) :
    Veiled (saveCheckpoint db now run ctx key state) q := by
  unfold saveCheckpoint
  split
  · refine ⟨fun c hc => ?_, h.steps⟩
    obtain ⟨before, hmem, rfl⟩ := List.mem_map.mp hc
    have hbefore := h.checkpoints before hmem
    split
    · exact hbefore
    · exact hbefore
  · refine ⟨fun c hc => ?_, h.steps⟩
    rcases List.mem_append.mp hc with hold | hnew
    · exact h.checkpoints c hold
    · rw [List.mem_singleton.mp hnew]
      exact hne

theorem saveCheckpoint_sameLedger {db : Db} {id : String} {run : AgentRun} (ctx : LeaseContext)
    (key : String) (state : CheckpointState) (hfind : db.runs.find? id = some run)
    (hd : run.dispatchState = .claimed) :
    SameLedger db (saveCheckpoint db now run ctx key state) := by
  have hveiled : ∀ q, Unheld db q → Veiled db q →
      Veiled (saveCheckpoint db now run ctx key state) q :=
    fun q hq h => saveCheckpoint_veiled ctx key state (hq.ne hfind hd) h
  unfold saveCheckpoint at hveiled ⊢
  split at hveiled
  next hany => rw [if_pos hany]; exact ⟨rfl, rfl, rfl, fun _ => rfl, rfl, rfl, hveiled⟩
  next hany => rw [if_neg hany]; exact ⟨rfl, rfl, rfl, fun _ => rfl, rfl, rfl, hveiled⟩

theorem execWrite_turn {db db' : Db} {id : String} {run : AgentRun} {ctx : LeaseContext}
    {w : ExecWrite} (hfind : db.runs.find? id = some run) (hd : run.dispatchState = .claimed)
    (h : execWrite db now run ctx w = .ok db') : Turn limits now causes id db db' := by
  cases w with
  | clearErrorCode =>
    cases h
    exact turn_put hfind (.clearErrorCode hd) fun h => h
  | requestCancel =>
    cases h
    exact turn_put hfind (.requestCancel (by simp [AgentRun.Unattended, hd])) fun h => h
  | markRunning =>
    simp only [execWrite] at h
    split at h
    · cases h
      exact .idle (.refl _)
    next hs =>
      exact .move run _ none _ hfind (.markRunning hd hs) db' (settle_event h) (.refl _)
        fun hnot hpurged => absurd hpurged hnot
  | setStarted =>
    cases h
    exact turn_put hfind (.setStarted hd) fun h => h
  | addActiveElapsed ms =>
    cases h
    exact turn_put hfind (.addActiveElapsed hd ms) fun h => h
  | reserve =>
    cases h
    exact turn_put hfind (.bumpVersion hd) fun h => h
  | addStep step =>
    simp only [execWrite] at h
    split at h
    next hrun =>
      cases h
      refine .idle ⟨rfl, rfl, rfl, fun _ => rfl, rfl, rfl, fun q hq hveiled => ?_⟩
      refine ⟨hveiled.checkpoints, fun s hs hid => ?_⟩
      rcases List.mem_append.mp hs with hold | hnew
      · exact hveiled.steps s hold hid
      · rw [List.mem_singleton.mp hnew, hrun] at hid
        exact absurd hid (hq.ne hfind hd)
    next =>
      cases h
      exact .idle (.refl _)
  | setStep stepId status errorCode =>
    cases h
    refine .idle ⟨rfl, rfl, rfl, fun _ => rfl, rfl, rfl, fun q _ h => h.map_steps fun s => ?_⟩
    by_cases hid : s.stepId = stepId
    · rw [if_pos hid]
      exact ⟨rfl, rfl, rfl⟩
    · rw [if_neg hid]
      exact ⟨rfl, rfl, rfl⟩
  | autoRetry stepId =>
    cases h
    refine .idle ⟨rfl, rfl, rfl, fun _ => rfl, rfl, rfl, fun q _ h => h.map_steps fun s => ?_⟩
    by_cases hid : s.stepId = stepId
    · rw [if_pos hid]
      exact ⟨rfl, rfl, rfl⟩
    · rw [if_neg hid]
      exact ⟨rfl, rfl, rfl⟩
  | saveCheckpoint key state =>
    cases h
    exact .idle (saveCheckpoint_sameLedger ctx key state hfind hd)
  | purgeCheckpoints =>
    cases h
    exact .idle ⟨rfl, rfl, rfl, fun _ => rfl, rfl, rfl,
      fun q _ h => ⟨fun c hc => h.checkpoints c (List.mem_filter.mp hc).1, h.steps⟩⟩
  | stepChanged =>
    exact .move run run none _ hfind (.stepChanged hd) db' (settle_event h) (.refl _)
      fun hnot hpurged => absurd hpurged hnot

theorem deliver_sameLedger (db : Db) (k : Nat) (status : OutboxStatus) (t : Option Time) :
    SameLedger db (deliver db k status t) := by
  have hfilter : ∀ (l : List RuntimeOutboxEvent) (k : Nat) (q : String),
      (((l.modify k fun e => { e with status := status, leaseExpiresAt := t }).filter
        (fun e => !e.isRunDispatch)).filter (fun e => decide (e.aggregateId = q))).map (·.payload)
      = ((l.filter (fun e => !e.isRunDispatch)).filter
        (fun e => decide (e.aggregateId = q))).map (·.payload) := by
    intro l
    induction l with
    | nil => intro k q; simp
    | cons e l ih =>
      intro k q
      cases k with
      | zero =>
        have hr : ({ e with status := status, leaseExpiresAt := t } :
          RuntimeOutboxEvent).isRunDispatch = e.isRunDispatch := rfl
        simp only [List.modify_zero_cons, List.filter_cons, hr]
        split
        · simp only [List.filter_cons]
          split <;> simp
        · rfl
      | succ k =>
        simp only [List.modify_succ_cons, List.filter_cons]
        split
        · simp only [List.filter_cons]
          split
          · simp only [List.map_cons, ih k q]
          · exact ih k q
        · exact ih k q
  refine ⟨rfl, rfl, rfl, fun q => ?_, rfl, rfl, fun q _ h => h.of_eq rfl rfl⟩
  simp only [deliveriesOf, deliveries, deliver, List.filter_append, List.map_append,
    hfilter db.outbox k q]

/-! ## Every operation -/

theorem withContext_ok {db db' : Db} {issued issued' : List Issued} {i : Nat}
    {act : Issued → Result (Db × List Issued)}
    (h : withContext db issued i act = .ok (db', issued')) :
    (db' = db ∧ issued' = issued) ∨
      ∃ held, issued[i]? = some held ∧ act held = .ok (db', issued') := by
  unfold withContext at h
  split at h
  · cases h
    exact Or.inl ⟨rfl, rfl⟩
  next held hheld => exact Or.inr ⟨held, hheld, h⟩

/-- Every operation but the reaper's is a turn on one run. -/
theorem perform_turn {db db' : Db} {issued issued' : List Issued} {op : Op}
    (hop : op ≠ .reapExpired) (h : perform limits db now issued op = .ok (db', issued')) :
    ∃ id, Turn limits now (Causes db now op) id db db' := by
  have hrow : ∀ {id : String} {run : AgentRun}, db.runs.find? id = some run →
      run.runId = id ∧ db.runs.find? run.runId = some run := by
    intro id run hfind
    have hid := Table.key_of_find? hfind
    exact ⟨hid, by rw [hid]; exact hfind⟩
  cases op with
  | reapExpired => exact absurd rfl hop
  | register definitions =>
    cases h
    exact ⟨"", .idle ⟨rfl, rfl, rfl, fun _ => rfl, rfl, rfl, fun q _ h => h.of_eq rfl rfl⟩⟩
  | create runId command callerId tenantId av =>
    obtain ⟨db₁, hok, h⟩ := bind_ok.mp h
    cases h
    exact ⟨_, create_turn hok⟩
  | start resolver runId callerId expected =>
    obtain ⟨db₁, hok, h⟩ := bind_ok.mp h
    cases h
    exact ⟨_, start_turn hok⟩
  | cancel runId callerId =>
    obtain ⟨db₁, hok, h⟩ := bind_ok.mp h
    cases h
    exact ⟨_, cancel_turn hok⟩
  | purge runId callerId =>
    obtain ⟨db₁, hok, h⟩ := bind_ok.mp h
    cases h
    exact ⟨_, purge_turn hok⟩
  | retry resolver runId callerId allowAuditor expected =>
    obtain ⟨db₁, hok, h⟩ := bind_ok.mp h
    cases h
    exact ⟨_, retry_turn hok fun run hown hcheck =>
      ⟨(hrow (ownedRun_ok hown)).2, hown, hcheck⟩⟩
  | approve runId callerId decision expectedVersion =>
    obtain ⟨db₁, hok, h⟩ := bind_ok.mp h
    cases h
    exact ⟨_, approve_turn hok fun run hown hv hpk hdec hs hd =>
      ⟨(hrow (ownedRun_ok hown)).2, hown, hs, hd, hv, hpk, hdec⟩⟩
  | claim runId owner leaseSeconds =>
    obtain ⟨⟨db₁, ctx?⟩, hok, h⟩ := bind_ok.mp h
    have hturn : Turn limits now (Causes db now (.claim runId owner leaseSeconds)) runId db db₁ :=
      claim_turn hok fun run hfind hcl => ⟨(hrow hfind).2, (hrow hfind).1, hcl⟩
    cases ctx? <;> cases h <;> exact ⟨_, hturn⟩
  | heartbeat i leaseSeconds =>
    rcases withContext_ok h with ⟨rfl, _⟩ | ⟨held, _, h⟩
    · exact ⟨"", .idle (.refl _)⟩
    · cases h
      exact ⟨_, heartbeat_turn db leaseSeconds held.runId held.ctx⟩
  | write i w =>
    rcases withContext_ok h with ⟨rfl, _⟩ | ⟨held, _, h⟩
    · exact ⟨"", .idle (.refl _)⟩
    · split at h
      · cases h
        exact ⟨"", .idle (.refl _)⟩
      next run hfind =>
        split at h
        next hown =>
          obtain ⟨db₁, hok, h⟩ := bind_ok.mp h
          cases h
          exact ⟨_, (execWrite_turn hfind hown.1.1 hok).same (sameLedger_commit _)⟩
        · cases h
          exact ⟨"", .idle (.refl _)⟩
  | finish i status errorCode =>
    rcases withContext_ok h with ⟨rfl, _⟩ | ⟨held, _, h⟩
    · exact ⟨"", .idle (.refl _)⟩
    · obtain ⟨⟨db₁, b⟩, hok, h⟩ := bind_ok.mp h
      cases h
      exact ⟨_, finish_turn hok⟩
  | releaseForDrain i =>
    rcases withContext_ok h with ⟨rfl, _⟩ | ⟨held, _, h⟩
    · exact ⟨"", .idle (.refl _)⟩
    · cases h
      exact ⟨_, releaseForDrain_turn db held.runId held.ctx⟩
  | finishAfterInvalidBoundary i =>
    rcases withContext_ok h with ⟨rfl, _⟩ | ⟨held, _, h⟩
    · exact ⟨"", .idle (.refl _)⟩
    · obtain ⟨⟨db₁, b⟩, hok, h⟩ := bind_ok.mp h
      cases h
      exact ⟨_, finishAfterInvalidBoundary_turn hok⟩
  | pauseForHuman i timeoutSeconds =>
    rcases withContext_ok h with ⟨rfl, _⟩ | ⟨held, _, h⟩
    · exact ⟨"", .idle (.refl _)⟩
    · obtain ⟨⟨db₁, b⟩, hok, h⟩ := bind_ok.mp h
      cases h
      exact ⟨_, pauseForHuman_turn hok⟩
  | repairRun runId resolver =>
    simp only [perform] at h
    split at h
    · cases h
      exact ⟨"", .idle (.refl _)⟩
    next run hfind =>
      obtain ⟨⟨db₁, b⟩, hok, h⟩ := bind_ok.mp h
      cases h
      obtain ⟨hid, hfind'⟩ := hrow hfind
      have hturn : Turn limits now (Causes db now (.repairRun runId resolver)) run.runId db db₁ :=
        ReconciliationService.repairRun_turn hfind' (fun hdue => ⟨hfind', hid, hdue⟩) hok
      exact ⟨_, hturn.same (sameLedger_commit _)⟩
  | repairDeadLetter k =>
    simp only [perform] at h
    split at h
    · cases h
      exact ⟨"", .idle (.refl _)⟩
    next event _ =>
      split at h
      · obtain ⟨db₁, hok, h⟩ := bind_ok.mp h
        cases h
        exact ⟨_, (ReconciliationService.repairDeadLetter_turn hok).same (sameLedger_commit _)⟩
      · cases h
        exact ⟨"", .idle (.refl _)⟩
  | deliver k status leaseExpiresAt =>
    cases h
    exact ⟨"", .idle (deliver_sameLedger db k status leaseExpiresAt)⟩

/-- **Every operation is a sequence of turns on different runs.** -/
theorem perform_turns {db db' : Db} {issued issued' : List Issued} {op : Op}
    (h : perform limits db now issued op = .ok (db', issued')) :
    ∃ ids : List String, ids.Nodup ∧ Turns limits now (Causes db now op) ids db db' := by
  by_cases hop : op = .reapExpired
  · subst hop
    obtain ⟨⟨db₁, recovered⟩, hok, h⟩ := bind_ok.mp h
    cases h
    have hturns : ∃ ids : List String, ids.Nodup ∧
        Turns limits now (Causes db now .reapExpired) ids db db₁ :=
      reapExpired_turns hok fun run hmem hd hl hpk =>
        ⟨Table.find?_of_mem hmem, hd, hl, hpk⟩
    obtain ⟨ids, hnd, hturns⟩ := hturns
    exact ⟨ids, hnd, hturns.same (sameLedger_commit _)⟩
  · obtain ⟨id, hturn⟩ := perform_turn hop h
    exact ⟨[id], List.nodup_singleton id, hturn.one⟩

/-! ## Seen from one run -/

/-- The callback facts of a run, oldest first. -/
def eventsOf (db : Db) (q : String) : List CallbackEvent :=
  db.callbackEvents.rows.filter (fun e => decide (e.runId = q))

/-- The row once the callback has taken its number. -/
def AgentRun.afterEvent (run : AgentRun) : Option String → AgentRun
  | none => run
  | some _ => run.nextEvent

/-- The callback facts a move adds. -/
def newEvents (run : AgentRun) : Option String → List CallbackEvent
  | none => []
  | some event => [callbackOf run event]

/-- What a move adds to the outbox. -/
def newDeliveries (run : AgentRun) : Option String → List OutboxPayload
  | none => []
  | some event => [(callbackDelivery run event).payload]

/-- Nothing about the run `q` differs. -/
structure SameRun (q : String) (db db' : Db) : Prop where
  row : db'.runs.find? q = db.runs.find? q
  events : eventsOf db' q = eventsOf db q
  deliveries : deliveriesOf db' q = deliveriesOf db q

theorem SameRun.trans {q : String} {a b c : Db} (h₁ : SameRun q a b) (h₂ : SameRun q b c) :
    SameRun q a c :=
  ⟨h₂.row.trans h₁.row, h₂.events.trans h₁.events, h₂.deliveries.trans h₁.deliveries⟩

theorem SameLedger.sameRun {db db' : Db} (h : SameLedger db db') (q : String) :
    SameRun q db db' :=
  ⟨by rw [h.runs], by unfold eventsOf; rw [h.callbackEvents], h.deliveriesOf q⟩

/-- What an operation does to the run `q`. -/
inductive RunStep (limits : AdmissionLimits) (now : Time) (causes : Cause → AgentRun → Prop)
    (q : String) (db db' : Db) : Prop
  | same (h : SameRun q db db')
  | created (hnone : db.runs.find? q = none) (command : CreateRunCommand)
      (definition : AgentDefinition) (policy : PackagePolicy) (callerId tenantId : String)
      (authorizationVersion : Int)
      (hrow : db'.runs.find? q = some (newRun q command definition policy callerId tenantId
        authorizationVersion now))
      (hevents : eventsOf db' q = eventsOf db q)
      (hdeliveries : deliveriesOf db' q = deliveriesOf db q)
  | moved (r r' : AgentRun) (shift : Shift) (event : Option String)
      (hfind : db.runs.find? q = some r) (hmove : Move limits now causes r r' shift event)
      (hrow : db'.runs.find? q = some (r'.afterEvent event))
      (hevents : eventsOf db' q = eventsOf db q ++ newEvents r' event)
      (hdeliveries : deliveriesOf db' q = deliveriesOf db q ++ newDeliveries r' event)

theorem RunStep.before {q : String} {a b c : Db} (h : SameRun q a b)
    (hs : RunStep limits now causes q b c) : RunStep limits now causes q a c := by
  cases hs with
  | same h' => exact .same (h.trans h')
  | created hnone command definition policy callerId tenantId av hrow hevents hdeliveries =>
    exact .created (h.row ▸ hnone) command definition policy callerId tenantId av hrow
      (hevents.trans h.events) (hdeliveries.trans h.deliveries)
  | moved r r' shift event hfind hmove hrow hevents hdeliveries =>
    exact .moved r r' shift event (h.row ▸ hfind) hmove hrow (by rw [hevents, h.events])
      (by rw [hdeliveries, h.deliveries])

theorem RunStep.after {q : String} {a b c : Db} (hs : RunStep limits now causes q a b)
    (h : SameRun q b c) : RunStep limits now causes q a c := by
  cases hs with
  | same h' => exact .same (h'.trans h)
  | created hnone command definition policy callerId tenantId av hrow hevents hdeliveries =>
    exact .created hnone command definition policy callerId tenantId av (h.row.trans hrow)
      (h.events.trans hevents) (h.deliveries.trans hdeliveries)
  | moved r r' shift event hfind hmove hrow hevents hdeliveries =>
    exact .moved r r' shift event hfind hmove (h.row.trans hrow) (h.events.trans hevents)
      (h.deliveries.trans hdeliveries)

theorem transitionRun_sameRun {l : AdmissionLimits} {db db' : Db} {run : AgentRun}
    {old : Option DispatchState} {new : DispatchState}
    (h : transitionRun l db run old new = .ok db') (q : String) : SameRun q db db' := by
  obtain ⟨_, rfl, _⟩ := transitionRun_ok h
  exact ⟨rfl, rfl, rfl⟩

theorem sameRun_plans (db : Db) (plans : List AgentPlan) (q : String) :
    SameRun q db { db with plans := plans } :=
  ⟨rfl, rfl, rfl⟩

/-- Writing the row and shifting the slot, seen from a run. -/
theorem shiftSlot_seen {db db' : Db} {run : AgentRun} {shift : Shift}
    (h : shiftSlot db run shift = .ok db') (q : String) :
    db'.runs = db.runs.put run ∧ eventsOf db' q = eventsOf db q ∧
      deliveriesOf db' q = deliveriesOf db q := by
  refine ⟨shiftSlot_runs h, ?_⟩
  cases shift with
  | none =>
    cases h
    exact ⟨rfl, rfl⟩
  | some shift =>
    have hs := transitionRun_sameRun h q
    exact ⟨hs.events, hs.deliveries⟩

theorem eventsOf_insert {db : Db} {events : CallbackTable} {e : CallbackEvent}
    (h : db.callbackEvents.insert? e = some events) (q : String) :
    events.rows.filter (fun e => decide (e.runId = q))
      = eventsOf db q ++ if e.runId = q then [e] else [] := by
  rw [(Table.insert?_eq_some.mp h).2, List.filter_append]
  by_cases hq : e.runId = q <;> simp [eventsOf, hq]

/-- Appending a callback, seen from a run. -/
theorem announce_seen {db db' : Db} {run : AgentRun} {event : Option String}
    (h : announce db run event = .ok db') (q : String) :
    db'.runs = (match event with | none => db.runs | some _ => db.runs.put run.nextEvent) ∧
      eventsOf db' q = eventsOf db q ++ (if run.runId = q then newEvents run event else []) ∧
      deliveriesOf db' q
        = deliveriesOf db q ++ (if run.runId = q then newDeliveries run event else []) := by
  cases event with
  | none =>
    cases h
    simp [newEvents, newDeliveries]
  | some event =>
    obtain ⟨events, hins, rfl⟩ := appendCallbackEvent_ok h
    refine ⟨rfl, ?_, ?_⟩
    · exact eventsOf_insert hins q
    · by_cases hq : run.runId = q
      · simp [deliveriesOf, deliveries, callbackDelivery, newDeliveries, hq,
          RuntimeOutboxEvent.isRunDispatch]
      · simp [deliveriesOf, deliveries, callbackDelivery, hq,
          RuntimeOutboxEvent.isRunDispatch]

/-- Settling the run `q`, seen from it. -/
theorem settle_seen {db db' : Db} {r run : AgentRun} {shift : Shift} {event : Option String}
    (hfind : db.runs.find? run.runId = some r) (h : settle db run shift event = .ok db') :
    db'.runs.find? run.runId = some (run.afterEvent event) ∧
      eventsOf db' run.runId = eventsOf db run.runId ++ newEvents run event ∧
      deliveriesOf db' run.runId = deliveriesOf db run.runId ++ newDeliveries run event := by
  obtain ⟨db₁, hshift, hev⟩ := settle_ok.mp h
  obtain ⟨hruns₁, hevents₁, hdel₁⟩ := shiftSlot_seen hshift run.runId
  obtain ⟨hruns, hevents, hdel⟩ := announce_seen hev run.runId
  rw [if_pos rfl] at hevents hdel
  refine ⟨?_, by rw [hevents, hevents₁], by rw [hdel, hdel₁]⟩
  have hput : (db.runs.put run).find? run.runId = some run := Table.find?_put_self hfind
  cases event with
  | none =>
    rw [hruns, hruns₁]
    exact hput
  | some event =>
    rw [hruns, hruns₁]
    exact Table.find?_put_self (a := run.nextEvent) hput

/-- Settling another run leaves `q` alone. -/
theorem settle_sameRun {db db' : Db} {run : AgentRun} {shift : Shift} {event : Option String}
    (h : settle db run shift event = .ok db') {q : String} (hq : q ≠ run.runId) :
    SameRun q db db' := by
  obtain ⟨db₁, hshift, hev⟩ := settle_ok.mp h
  obtain ⟨_, hevents₁, hdel₁⟩ := shiftSlot_seen hshift q
  obtain ⟨_, hevents, hdel⟩ := announce_seen hev q
  have hne : ¬ run.runId = q := fun he => hq he.symm
  rw [if_neg hne, List.append_nil] at hevents hdel
  exact ⟨settle_find?_ne h hq, hevents.trans hevents₁, hdel.trans hdel₁⟩

/-- A turn on another run leaves `q` alone. -/
theorem Turn.sameRun {id q : String} {db db' : Db} (h : Turn limits now causes id db db')
    (hq : q ≠ id) : SameRun q db db' := by
  cases h with
  | idle h => exact h.sameRun q
  | create run command definition policy callerId tenantId av hrun runs hins db₁ hadm plan hplan h =>
    have hid : run.runId = id := by rw [hrun]; rfl
    have hrow : SameRun q db { db with runs := runs } :=
      ⟨by rw [Table.find?_insert? hins, if_neg (by rw [hid]; exact hq)], rfl, rfl⟩
    exact (hrow.trans (transitionRun_sameRun hadm q)).trans
      ((sameRun_plans db₁ _ q).trans (h.sameRun q))
  | move r r' shift event hfind hmove db₁ hset h _ =>
    have hid : r'.runId = id := hmove.runId_eq.trans (Table.key_of_find? hfind)
    exact (settle_sameRun hset (by rw [hid]; exact hq)).trans (h.sameRun q)

/-- A turn on the run `q`, seen from it. -/
theorem Turn.runStep {q : String} {db db' : Db} (h : Turn limits now causes q db db') :
    RunStep limits now causes q db db' := by
  cases h with
  | idle h => exact .same (h.sameRun q)
  | create run command definition policy callerId tenantId av hrun runs hins db₁ hadm plan hplan h =>
    subst hrun
    refine RunStep.after ?_ ((sameRun_plans db₁ _ q).trans (h.sameRun q))
    have hadm' := transitionRun_sameRun hadm q
    obtain ⟨hnone, _⟩ := Table.insert?_eq_some.mp hins
    refine .created hnone command definition policy callerId tenantId av
      (hadm'.row.trans ?_) hadm'.events hadm'.deliveries
    exact (Table.find?_insert? hins q).trans (if_pos rfl)
  | move r r' shift event hfind hmove db₁ hset h _ =>
    have hid : r'.runId = q := hmove.runId_eq.trans (Table.key_of_find? hfind)
    subst hid
    obtain ⟨hrow, hevents, hdel⟩ := settle_seen hfind hset
    exact RunStep.after (.moved r r' shift event hfind hmove hrow hevents hdel) (h.sameRun _)

theorem Turns.sameRun {ids : List String} {q : String} {db db' : Db}
    (h : Turns limits now causes ids db db') (hq : q ∉ ids) : SameRun q db db' := by
  induction h with
  | nil h => exact h.sameRun q
  | cons h _ ih =>
    rw [List.mem_cons, not_or] at hq
    exact (h.sameRun hq.1).trans (ih hq.2)

/-- Turns on different runs do one thing to each run. -/
theorem Turns.runStep {ids : List String} {db db' : Db} (h : Turns limits now causes ids db db')
    (hnd : ids.Nodup) (q : String) : RunStep limits now causes q db db' := by
  induction h with
  | nil h => exact .same (h.sameRun q)
  | @cons id ids db db₁ db' h rest ih =>
    obtain ⟨hnot, hnd'⟩ := List.nodup_cons.mp hnd
    by_cases hq : q = id
    · subst hq
      exact RunStep.after h.runStep (rest.sameRun hnot)
    · exact RunStep.before (h.sameRun hq) (ih hnd')

/-- **What an operation does to one run.** -/
theorem perform_runStep {db db' : Db} {issued issued' : List Issued} {op : Op}
    (h : perform limits db now issued op = .ok (db', issued')) (q : String) :
    RunStep limits now (Causes db now op) q db db' := by
  obtain ⟨ids, hnd, hturns⟩ := perform_turns h
  exact hturns.runStep hnd q

/-- One step of the system, seen from one run. -/
theorem step_runStep (limits : AdmissionLimits) (s : Sys) (e : Event) (q : String) :
    RunStep limits (s.clock + e.elapsed) (Causes s.db (s.clock + e.elapsed) e.op) q s.db
      (step limits s e).db := by
  rcases step_cases limits s e with ⟨db, issued, h, hs⟩ | hs
  · rw [hs]
    exact perform_runStep h q
  · rw [hs]
    exact .same ⟨rfl, rfl, rfl⟩

end AgentRuntime
