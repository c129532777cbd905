import AgentRuntime.Stranded

/-!
# Dead letters of earlier dispatches

The last loop of a pass fails every pending queued run that has a
`run_dispatch` event in the dead letters. It looks the run up by the event
and does not ask whether the event is the run's current dispatch: a run that
was failed for a dead letter and then retried has a new dispatch event, and
is failed again by the next pass for the old one.

`Spared` collects the guards of the repairs before that loop, so that a run
for which they hold is still in the queue when the loop comes to it, and
`StaleDeadLetter` says when such a run has a dead letter that is not its
current dispatch. The pass ends a run for such an event exactly when there is
one before it (`dispatch_failed_iff`).
-/

namespace AgentRuntime

open Keyed Fencing

namespace AgentRun

/-- The run waits in the queue for its first step. -/
def Waiting (run : AgentRun) : Prop :=
  run.status = .pending ∧ run.dispatchState = .queued

/-- The run has been failed for its dispatch. -/
def FailedOnDispatch (run : AgentRun) : Prop :=
  run.status = .failed ∧ run.dispatchState = .finished ∧ run.errorCode = some "DISPATCH_FAILED"

instance (run : AgentRun) : Decidable run.Waiting := by
  unfold Waiting; infer_instance

instance (run : AgentRun) : Decidable run.FailedOnDispatch := by
  unfold FailedOnDispatch; infer_instance

end AgentRun

namespace ReconciliationService

/-- The dead letters of dispatches, as the query of the last loop finds them. -/
def deadDispatches (db : Db) : List RuntimeOutboxEvent :=
  db.outbox.filter (fun e => e.isRunDispatch && decide (e.status = .deadLetter))

/-- The pass up to its last loop. -/
def beforeDeadLetters (db : Db) (current now : Time) (resolver : Resolver) : Result Db := do
  let (db₁, _) ← LeaseService.reapExpired db now
  let db₂ := reconcileAdmissionBuckets db.buckets db₁
  repairRuns current now resolver db₂ db₂.runs.rows

theorem runOnce_eq (db : Db) (current now : Time) (resolver : Resolver) :
    runOnce db current now resolver = (do
      let db₃ ← beforeDeadLetters db current now resolver
      let db₄ ← repairDeadLetters current db₃ (deadDispatches db₃)
      pure db₄.commit) := by
  unfold runOnce beforeDeadLetters
  cases LeaseService.reapExpired db now with
  | error e => rfl
  | ok reaped => rfl

/-- The dispatch event that was appended last for the run. -/
def lastDispatch (db : Db) (q : String) : Option RuntimeOutboxEvent :=
  (dispatches db q).getLast?

/-- The run has a dispatch in the dead letters. -/
def HasDeadLetter (db : Db) (q : String) : Prop :=
  ∃ e ∈ dispatchEvents db q, e.status = .deadLetter

/-- The current dispatch of the run is in the dead letters. -/
def DispatchDead (db : Db) (q : String) : Prop :=
  ∃ e, lastDispatch db q = some e ∧ e.status = .deadLetter

section Loop

variable {q : String} {current : Time} {db db' : Db} {run : AgentRun}

/-! ## The last loop -/

theorem mem_deadDispatches {e : RuntimeOutboxEvent} :
    (e ∈ deadDispatches db ∧ e.aggregateId = q) ↔ e ∈ dispatchEvents db q ∧ e.status = .deadLetter := by
  unfold deadDispatches dispatchEvents isDispatchOf
  simp only [List.mem_filter, Bool.and_eq_true, decide_eq_true_eq]
  tauto

theorem repairDeadLetter_other {event : RuntimeOutboxEvent} (hq : event.aggregateId ≠ q)
    (h : repairDeadLetter db current event = .ok db') : SameView q db db' := by
  unfold repairDeadLetter at h
  split at h
  · cases h
    exact .refl q db
  next run hfind =>
    split at h
    next hc =>
      obtain ⟨⟨db₁, b⟩, hterm, h⟩ := bind_ok.mp h
      cases h
      have hrun : run.runId ≠ q := by rwa [Table.key_of_find? hfind]
      have u : Updates (SameView q) current current none db run := updates_sameView hrun
      rcases u.terminate _ _ (Or.inr (Or.inl hc.2)) _ _ hterm with ⟨_, hdb⟩ | ⟨_, hsame⟩
      · rw [hdb]
        exact .refl q db
      · exact hsame
    · cases h
      exact .refl q db

/-- A run that is not waiting is not touched. -/
theorem repairDeadLetter_skips {event : RuntimeOutboxEvent}
    (hrow : db.runs.find? event.aggregateId = some run) (hno : ¬ run.Waiting)
    (h : repairDeadLetter db current event = .ok db') : db' = db := by
  unfold repairDeadLetter at h
  rw [hrow] at h
  dsimp only at h
  rw [if_neg (show ¬ (run.status = .pending ∧ run.dispatchState = .queued) from hno)] at h
  cases h
  rfl

/-- What `_terminate` leaves in the row. -/
theorem row_of_terminates {loaded : AgentRun} {status : RunStatus} {code : String}
    (h : Terminates current loaded status code db db') :
    ∃ r, db.runs.find? loaded.runId = some r ∧
      db'.runs.find? loaded.runId = some (r.terminate current status code).nextEvent := by
  obtain ⟨r, db₁, hfind, _, hadm, hcb⟩ := h
  have hkey := Table.key_of_find? hfind
  rw [← hkey] at hfind ⊢
  refine ⟨r, hfind, ?_⟩
  have hrow : (db.runs.put (r.terminate current status code)).find? r.runId
      = some (r.terminate current status code) :=
    Table.find?_put_self (a := r.terminate current status code) hfind
  obtain ⟨event, _, hev⟩ := appendCallback_ok hcb
  obtain ⟨events, _, rfl⟩ := appendCallbackEvent_ok hev
  obtain ⟨buckets, rfl, _⟩ := transitionRun_ok hadm
  exact Table.find?_put_self (a := (r.terminate current status code).nextEvent) hrow

theorem repairDeadLetter_fails {event : RuntimeOutboxEvent}
    (hrow : db.runs.find? event.aggregateId = some run) (hw : run.Waiting)
    (h : repairDeadLetter db current event = .ok db') :
    ∃ r, db'.runs.find? event.aggregateId = some r ∧ r.FailedOnDispatch := by
  unfold repairDeadLetter at h
  rw [hrow] at h
  dsimp only at h
  rw [if_pos (show run.status = .pending ∧ run.dispatchState = .queued from hw)] at h
  obtain ⟨⟨db₁, b⟩, hterm, h⟩ := bind_ok.mp h
  cases h
  have hkey := Table.key_of_find? hrow
  rw [← hkey] at hrow ⊢
  rcases terminate_repairs db run _ _ _ _ hterm with ⟨hb, _⟩ | ⟨_, hend⟩
  · rw [hb] at hterm
    exact absurd (terminate_hits hrow hterm) (by simp)
  · obtain ⟨r, _, hr⟩ := row_of_terminates hend
    exact ⟨_, hr, rfl, rfl, rfl⟩

/-- What the loop does to the row of a run. -/
theorem repairDeadLetters_row : ∀ {l : List RuntimeOutboxEvent} {db : Db} {run : AgentRun},
    db.runs.find? q = some run → repairDeadLetters current db l = .ok db' →
      (run.Waiting ∧ (∃ e ∈ l, e.aggregateId = q) ∧
        ∃ r, db'.runs.find? q = some r ∧ r.FailedOnDispatch) ∨
      (¬ (run.Waiting ∧ ∃ e ∈ l, e.aggregateId = q) ∧ db'.runs.find? q = some run)
  | [], db, run, hrow, h => by
    cases h
    exact Or.inr ⟨fun ⟨_, e, he, _⟩ => absurd he List.not_mem_nil, hrow⟩
  | event :: rest, db, run, hrow, h => by
    obtain ⟨db₁, hone, hrest⟩ := bind_ok.mp h
    by_cases hid : event.aggregateId = q
    · have hown : db.runs.find? event.aggregateId = some run := by rw [hid, hrow]
      by_cases hw : run.Waiting
      · refine Or.inl ⟨hw, ⟨event, List.mem_cons_self, hid⟩, ?_⟩
        obtain ⟨r, hr, hfailed⟩ := repairDeadLetter_fails hown hw hone
        rw [hid] at hr
        rcases repairDeadLetters_row hr hrest with ⟨hagain, _⟩ | ⟨_, hkept⟩
        · exact absurd (hagain.1.symm.trans hfailed.1) (by decide)
        · exact ⟨r, hkept, hfailed⟩
      · have hsame := repairDeadLetter_skips hown hw hone
        rw [hsame] at hrest
        rcases repairDeadLetters_row hrow hrest with ⟨hw', _⟩ | ⟨_, hkept⟩
        · exact absurd hw' hw
        · exact Or.inr ⟨fun hboth => hw hboth.1, hkept⟩
    · have hrow₁ := (repairDeadLetter_other hid hone).row.trans hrow
      have hmem : (∃ e ∈ event :: rest, e.aggregateId = q) ↔ ∃ e ∈ rest, e.aggregateId = q := by
        simp [hid]
      rw [hmem]
      exact repairDeadLetters_row hrow₁ hrest

end Loop

/-! ## The reaper, seen from one run -/

section Reaper

open LeaseService

variable {q : String} {now : Time} {db db' : Db}

/-- What the reaper has made of a run. -/
inductive ReapedView (now : Time) (q : String) (db db' : Db) : Prop
  | kept (hsame : SameView q db db')
      (hno : ∀ run, db.runs.find? q = some run →
        ¬ (run.dispatchState = .claimed ∧ run.LeaseExpired now))
  | requeued (run : AgentRun) (hrow : db.runs.find? q = some run)
      (hsel : run.dispatchState = .claimed ∧ run.LeaseExpired now)
      (hexec : packageExecutable db run = true)
      (hrow' : db'.runs.find? q = some (run.reap now))
      (hflushed : dispatchEvents db' q = dispatchEvents db q)
      (hfresh : ∃ e, e.status = .pending ∧
        db'.outboxNew.filter (isDispatchOf q) = db.outboxNew.filter (isDispatchOf q) ++ [e])
      (hplans : db'.plans = db.plans) (hdefs : db'.definitions = db.definitions)
  | cancelled (run : AgentRun) (hrow : db.runs.find? q = some run)
      (hsel : run.dispatchState = .claimed ∧ run.LeaseExpired now)
      (hexec : packageExecutable db run = false)
      (hended : ∃ r, db'.runs.find? q = some r ∧ r.dispatchState = .finished)

theorem reapOne_sameView {selected : AgentRun} {b : Bool} (hq : selected.runId ≠ q)
    (h : reapOne db now selected = .ok (db', b)) : SameView q db db' := by
  unfold reapOne at h
  split at h
  · cases h
    exact .refl q db
  next run hfind =>
    have hrun : run.runId ≠ q := by rwa [Table.key_of_find? hfind]
    split at h
    · split at h
      · obtain ⟨db₁, hadm, h⟩ := bind_ok.mp h
        cases h
        have hr : (run.reap now).runId ≠ q := hrun
        exact sameView_queued hr hadm rfl
      · obtain ⟨db₁, hadm, h⟩ := bind_ok.mp h
        obtain ⟨db₂, hcb, h⟩ := bind_ok.mp h
        cases h
        have hr : (run.endWith now .cancelled (some "PACKAGE_REVOKED")).runId ≠ q := hrun
        exact sameView_ended hr hadm hcb
    · cases h
      exact .refl q db

theorem reapOne_view {run : AgentRun} {b : Bool} (hrow : db.runs.find? run.runId = some run)
    (hsel : run.dispatchState = .claimed ∧ run.LeaseExpired now)
    (h : reapOne db now run = .ok (db', b)) : ReapedView now run.runId db db' := by
  unfold reapOne at h
  rw [hrow] at h
  dsimp only at h
  rw [if_pos ⟨rfl, hsel⟩] at h
  cases hx : packageExecutable db run with
  | true =>
    rw [if_pos hx] at h
    obtain ⟨db₁, hadm, h⟩ := bind_ok.mp h
    cases h
    obtain ⟨buckets, rfl, _⟩ := transitionRun_ok hadm
    refine .requeued run hrow hsel hx (Table.find?_put_self (a := run.reap now) hrow) rfl
      ⟨{ aggregateId := run.runId, payload := .runDispatch "lease_reaped" }, rfl, ?_⟩ rfl rfl
    show (db.outboxNew ++ [_]).filter _ = _
    rw [List.filter_append]
    simp [isDispatchOf, RuntimeOutboxEvent.isRunDispatch]
  | false =>
    rw [if_neg (by rw [hx]; exact Bool.false_ne_true)] at h
    obtain ⟨db₁, hadm, h⟩ := bind_ok.mp h
    obtain ⟨db₂, hcb, h⟩ := bind_ok.mp h
    cases h
    obtain ⟨event, _, hev⟩ := appendCallback_ok hcb
    obtain ⟨events, _, rfl⟩ := appendCallbackEvent_ok hev
    obtain ⟨buckets, rfl, _⟩ := transitionRun_ok hadm
    let ended := run.endWith now .cancelled (some "PACKAGE_REVOKED")
    have hput : (db.runs.put ended).find? run.runId = some ended :=
      Table.find?_put_self (a := ended) hrow
    exact .cancelled run hrow hsel hx ⟨ended.nextEvent,
      Table.find?_put_self (a := ended.nextEvent) hput, rfl⟩

theorem reapAll_sameView : ∀ {l : List AgentRun} {db db' : Db} {ids : List String},
    (∀ run ∈ l, run.runId ≠ q) → reapAll now db l = .ok (db', ids) → SameView q db db'
  | [], db, db', _, _, h => by
    cases h
    exact .refl q db
  | run :: rest, db, db', _, hne, h => by
    obtain ⟨⟨db₁, b⟩, hone, h⟩ := bind_ok.mp h
    obtain ⟨⟨db₂, others⟩, hrest, h⟩ := bind_ok.mp h
    cases h
    obtain ⟨hrun, hne'⟩ := List.forall_mem_cons.mp hne
    exact (reapOne_sameView hrun hone).trans (reapAll_sameView hne' hrest)

theorem reapAll_append : ∀ {l₁ l₂ : List AgentRun} {db db' : Db} {ids : List String},
    reapAll now db (l₁ ++ l₂) = .ok (db', ids) →
      ∃ db₁ ids₁ ids₂, reapAll now db l₁ = .ok (db₁, ids₁) ∧ reapAll now db₁ l₂ = .ok (db', ids₂)
  | [], _, db, _, ids, h => ⟨db, [], ids, rfl, h⟩
  | run :: rest, l₂, db, db', ids, h => by
    obtain ⟨⟨db₁, b⟩, hone, h⟩ := bind_ok.mp h
    obtain ⟨⟨db₂, others⟩, hrest, h⟩ := bind_ok.mp h
    cases h
    obtain ⟨db₃, ids₁, ids₂, h₁, h₂⟩ := reapAll_append hrest
    exact ⟨db₃, _, ids₂, bind_ok.mpr ⟨_, hone, bind_ok.mpr ⟨_, h₁, rfl⟩⟩, h₂⟩

theorem ReapedView.of_sameView {db₁ db₂ : Db} (h : ReapedView now q db₁ db₂)
    (hbefore : SameView q db db₁) (hafter : SameView q db₂ db') : ReapedView now q db db' := by
  have hexec : ∀ run, packageExecutable db₁ run = packageExecutable db run := fun run => by
    unfold packageExecutable Db.definition?
    rw [hbefore.definitions]
  cases h with
  | kept hsame hno =>
    refine .kept ((hbefore.trans hsame).trans hafter) fun run hrow => hno run ?_
    exact hbefore.row.trans hrow
  | requeued run hrow hsel hx hrow' hflushed hfresh hplans hdefs =>
    obtain ⟨e, he, hnew⟩ := hfresh
    exact .requeued run (hbefore.row.symm.trans hrow) hsel (hexec run ▸ hx)
      (hafter.row.trans hrow') (hafter.flushed.trans (hflushed.trans hbefore.flushed))
      ⟨e, he, by rw [hafter.fresh, hnew, hbefore.fresh]⟩
      (hafter.plans.trans (hplans.trans hbefore.plans))
      (hafter.definitions.trans (hdefs.trans hbefore.definitions))
  | cancelled run hrow hsel hx hended =>
    obtain ⟨r, hr, hd⟩ := hended
    exact .cancelled run (hbefore.row.symm.trans hrow) hsel (hexec run ▸ hx)
      ⟨r, hafter.row.trans hr, hd⟩

/-- **The reaper** leaves a run alone, or finds its lease expired and puts it
back into the queue or cancels it. -/
theorem reapExpired_view {ids : List String} (h : reapExpired db now = .ok (db', ids)) (q : String) :
    ReapedView now q db db' := by
  unfold reapExpired at h
  by_cases hex : ∃ run, db.runs.find? q = some run ∧ run.dispatchState = .claimed ∧
      run.LeaseExpired now
  · obtain ⟨run, hrow, hsel⟩ := hex
    obtain ⟨hmem, rfl⟩ := Table.find?_eq_some.mp hrow
    have hin : run ∈ db.runs.rows.filter
        (fun run => decide (run.dispatchState = .claimed ∧ run.LeaseExpired now)) :=
      List.mem_filter.mpr ⟨hmem, decide_eq_true hsel⟩
    have hnd : ((db.runs.rows.filter (fun run =>
        decide (run.dispatchState = .claimed ∧ run.LeaseExpired now))).map (·.runId)).Nodup :=
      db.runs.nodup.sublist (List.filter_sublist.map _)
    obtain ⟨l₁, l₂, hl⟩ := List.append_of_mem hin
    rw [hl] at h hnd
    rw [List.map_append, List.map_cons, List.nodup_append, List.nodup_cons] at hnd
    obtain ⟨_, ⟨hn₂, _⟩, hdis⟩ := hnd
    obtain ⟨db₁, ids₁, ids₂, hfirst, hlast⟩ := reapAll_append h
    obtain ⟨⟨db₂, b⟩, hone, hlast⟩ := bind_ok.mp hlast
    obtain ⟨⟨db₃, others⟩, hrest, hlast⟩ := bind_ok.mp hlast
    cases hlast
    have hbefore : SameView run.runId db db₁ := reapAll_sameView (fun r hr =>
      hdis r.runId (List.mem_map_of_mem hr) run.runId List.mem_cons_self) hfirst
    have hafter : SameView run.runId db₂ db' := reapAll_sameView (fun r hr he =>
      hn₂ (List.mem_map.mpr ⟨r, hr, he⟩)) hrest
    exact (reapOne_view (hbefore.row.trans hrow) hsel hone).of_sameView hbefore hafter
  · refine .kept (reapAll_sameView (fun run hrun hid => hex ?_) h) fun run hrow hsel =>
      hex ⟨run, hrow, hsel⟩
    obtain ⟨hmem, hsel⟩ := List.mem_filter.mp hrun
    exact ⟨run, by rw [← hid]; exact Table.find?_of_mem hmem, of_decide_eq_true hsel⟩

end Reaper

/-! ## The loop over the runs -/

/-- None of the repairs before the last loop ends the run. -/
structure Spared (db : Db) (current : Time) (resolver : Resolver) (run : AgentRun) : Prop where
  waiting : run.Waiting
  beforeDeadline : current < run.runDeadlineAt
  belowActiveLimit : activeLimitReached db run = false
  authorized : authorizationStale resolver run = false
  executable : packageExecutable db run = true
  withinTtl : queueTtlReached db current run = false

theorem Spared.congr {db db' : Db} {current : Time} {resolver : Resolver} {run : AgentRun}
    (hplans : db'.plans = db.plans) (hdefs : db'.definitions = db.definitions)
    (h : Spared db current resolver run) : Spared db' current resolver run where
  waiting := h.waiting
  beforeDeadline := h.beforeDeadline
  belowActiveLimit := by
    have := h.belowActiveLimit
    unfold activeLimitReached Db.plan? at *
    rwa [hplans]
  authorized := h.authorized
  executable := by
    have := h.executable
    unfold packageExecutable Db.definition? at *
    rwa [hdefs]
  withinTtl := by
    have := h.withinTtl
    unfold queueTtlReached Db.plan? at *
    rwa [hplans]

section Turn

variable {q : String} {current now : Time} {resolver : Resolver} {db db' : Db} {run : AgentRun}

/-- A dead letter is left to the last loop. -/
theorem repairMissingRunDispatch_dead (h : HasDeadLetter db run.runId) :
    repairMissingRunDispatch db current run = (db, false) := by
  obtain ⟨e, he, hdead⟩ := h
  unfold repairMissingRunDispatch
  dsimp only
  split
  · rw [if_pos (List.any_eq_true.mpr ⟨e, he, decide_eq_true (Or.inr hdead)⟩)]
  · rfl

/-- An update of a run that has a dead letter takes it out of the queue. -/
theorem updates_notWaiting (hrow : db.runs.find? run.runId = some run)
    (hdead : HasDeadLetter db run.runId) :
    Updates (fun _ db' => ∃ r, db'.runs.find? run.runId = some r ∧ ¬ r.Waiting)
      current now resolver db run where
  terminate status code _ := by
    refine (terminate_repairs db run status code).imp fun db' h => ?_
    obtain ⟨r, _, hr⟩ := row_of_terminates h
    exact ⟨_, hr, fun hw => nomatch hw.2⟩
  stop write hw := by
    refine (requestStop_repairs db run write).imp fun db' h => ?_
    obtain ⟨r, hfind, hd, rfl⟩ := h
    have hkey := Table.key_of_find? hfind
    rw [← hkey, ← key_of_stopWrite hw] at hfind ⊢
    refine ⟨write r, Table.find?_put_self hfind, fun hwait => ?_⟩
    cases hw <;> exact nomatch hd.symm.trans hwait.2
  purge := by
    refine (repairPurge_repairs db run).imp fun db' h => ?_
    obtain ⟨hd, r, hfind, _, rfl⟩ := h
    cases hrow.symm.trans hfind
    exact ⟨run.purge now, Table.find?_put_self (a := run.purge now) hfind,
      fun hw => nomatch hd.symm.trans hw.2⟩
  missing := by
    rw [repairMissingRunDispatch_dead hdead]
    exact repairs_nothing db
  requeue hdue := by
    refine (requeueTimeoutFallback_repairs db run).imp fun db' h => ?_
    obtain ⟨r, db₁, hfind, hs, _, hadm, rfl⟩ := h
    cases hrow.symm.trans hfind
    obtain ⟨buckets, rfl, _⟩ := transitionRun_ok hadm
    exact ⟨run.requeueFallback current, Table.find?_put_self (a := run.requeueFallback current) hfind,
      fun hw => nomatch (hdue hrow).waiting.symm.trans hw.1⟩

/-- A turn on a run that has a dead letter takes it out of the queue, or does
nothing since no repair was for it. -/
theorem repairRun_dead {b : Bool} (hrow : db.runs.find? run.runId = some run)
    (hdead : HasDeadLetter db run.runId)
    (h : repairRun db current now resolver run = .ok (db', b)) :
    (db' = db ∧ (run.Waiting → Spared db current resolver run)) ∨
      ∃ r, db'.runs.find? run.runId = some r ∧ ¬ r.Waiting := by
  have u : Updates (fun _ db' => ∃ r, db'.runs.find? run.runId = some r ∧ ¬ r.Waiting)
      current now resolver db run := updates_notWaiting hrow hdead
  rcases repairRun_repairs u db' b h with ⟨rfl, rfl⟩ | ⟨_, hout⟩
  · refine Or.inl ⟨rfl, fun hw => ?_⟩
    have e := u.toEnds
    have hun : run.Unattended := Or.inr (Or.inl hw.2)
    have hidle : Idle run := ⟨hun, by rw [hw.1]; rfl⟩
    unfold repairRun at h
    obtain ⟨_, h⟩ := orElse_false u.purge h
    obtain ⟨hdeadline, h⟩ := orElse_false (repairRunDeadline_repairs e) h
    obtain ⟨hactive, h⟩ := orElse_false (repairActiveElapsedTimeout_repairs e) h
    obtain ⟨hauth, h⟩ := orElse_false (repairAuthorizationChanged_repairs e) h
    obtain ⟨hrevoked, h⟩ := orElse_false (repairRevokedDefinition_repairs e) h
    obtain ⟨_, h⟩ := orElse_false (repairHeldTimeout_repairs e) h
    obtain ⟨hqueued, h⟩ := orElse_false (repairQueuedTimeout_repairs e) h
    exact {
      waiting := hw
      beforeDeadline := repairRunDeadline_false hrow hidle hdeadline
      belowActiveLimit := repairActiveElapsedTimeout_false hrow hidle hactive
      authorized := repairAuthorizationChanged_false hrow hun hauth
      executable := repairRevokedDefinition_false hrow hun hrevoked
      withinTtl := by
        unfold repairQueuedTimeout at hqueued
        by_contra hno
        rw [if_pos ⟨hw.1, hw.2, Bool.not_eq_false _ ▸ hno⟩] at hqueued
        exact absurd (terminate_hits hrow hqueued) (by simp) }
  · exact Or.inr hout

theorem repairRun_spared (h : Spared db current resolver run)
    (hdead : HasDeadLetter db run.runId) :
    repairRun db current now resolver run = .ok (db, false) := by
  have hw := h.waiting
  have hpurge : repairPurge db now run = .ok (db, false) :=
    if_neg fun hp => by simp [hw.2] at hp
  have hdeadline : repairRunDeadline db current run = .ok (db, false) := if_pos h.beforeDeadline
  have hactive : repairActiveElapsedTimeout db current run = .ok (db, false) :=
    if_neg (by simp [h.belowActiveLimit])
  have hauth : repairAuthorizationChanged db current resolver run = .ok (db, false) :=
    if_pos (by simp [h.authorized])
  have hrevoked : repairRevokedDefinition db current run = .ok (db, false) := if_pos h.executable
  have hheld : repairHeldTimeout db current run = .ok (db, false) :=
    if_neg fun hh => by simp [hw.2] at hh
  have hqueued : repairQueuedTimeout db current run = .ok (db, false) :=
    if_neg fun hh => by simp [h.withinTtl] at hh
  have hwait : repairWaitingHumanTimeout db current run = .ok (db, false) :=
    if_neg fun hh => by simp [hw.1] at hh
  unfold repairRun orElse
  rw [hpurge]
  simp only [bind, Except.bind, hdeadline, hactive, hauth, hrevoked, hheld, hqueued,
    repairMissingRunDispatch_dead hdead, hwait, pure, Except.pure, Bool.false_eq_true, if_false]

/-- Replaying makes an event pending. -/
theorem mem_replayLast {p : RuntimeOutboxEvent → Bool} {e : RuntimeOutboxEvent} :
    ∀ {l : List RuntimeOutboxEvent}, e ∈ replayLast p l → e ∈ l ∨ e.status = .pending
  | e₀ :: rest, h => by
    unfold replayLast at h
    split at h
    · rcases List.mem_cons.mp h with rfl | h
      · exact Or.inr rfl
      · exact Or.inl (List.mem_cons_of_mem e₀ h)
    · rcases List.mem_cons.mp h with rfl | h
      · exact Or.inl List.mem_cons_self
      · exact (mem_replayLast h).imp_left (List.mem_cons_of_mem e₀)

/-- No update sends a dispatch to the dead letters. -/
theorem updates_noDeadLetter (hno : ¬ HasDeadLetter db q) :
    Updates (fun _ db' => ¬ HasDeadLetter db' q) current now resolver db run where
  terminate status code _ := by
    refine (terminate_repairs db run status code).imp fun db' h => ?_
    obtain ⟨r, db₁, _, _, hadm, hcb⟩ := h
    obtain ⟨event, _, hev⟩ := appendCallback_ok hcb
    obtain ⟨events, _, rfl⟩ := appendCallbackEvent_ok hev
    obtain ⟨buckets, rfl, _⟩ := transitionRun_ok hadm
    exact hno
  stop write _ := by
    refine (requestStop_repairs db run write).imp fun db' h => ?_
    obtain ⟨_, _, _, rfl⟩ := h
    exact hno
  purge := by
    refine (repairPurge_repairs db run).imp fun db' h => ?_
    obtain ⟨_, r, _, _, rfl⟩ := h
    exact hno
  missing := by
    refine (repairMissingRunDispatch_repairs db run).imp fun db' h => ?_
    rcases h with ⟨_, rfl⟩ | ⟨_, rfl⟩
    · exact hno
    · rintro ⟨e, he, hdead⟩
      obtain ⟨hmem, hof⟩ := List.mem_filter.mp he
      rcases mem_replayLast hmem with hold | hpending
      · exact hno ⟨e, List.mem_filter.mpr ⟨hold, hof⟩, hdead⟩
      · cases hdead.symm.trans hpending
  requeue _ := by
    refine (requeueTimeoutFallback_repairs db run).imp fun db' h => ?_
    obtain ⟨_, db₁, _, _, _, hadm, rfl⟩ := h
    obtain ⟨buckets, rfl, _⟩ := transitionRun_ok hadm
    exact hno

theorem repairRuns_noDeadLetter : ∀ {l : List AgentRun} {db db' : Db}, ¬ HasDeadLetter db q →
    repairRuns current now resolver db l = .ok db' → ¬ HasDeadLetter db' q
  | [], db, db', hno, h => by
    cases h
    exact hno
  | run :: rest, db, db', hno, h => by
    obtain ⟨⟨db₁, b⟩, hturn, hrest⟩ := bind_ok.mp h
    refine repairRuns_noDeadLetter ?_ hrest
    rcases repairRun_repairs (updates_noDeadLetter hno) db₁ b hturn with ⟨_, hdb⟩ | ⟨_, hout⟩
    · rw [hdb]
      exact hno
    · exact hout

end Turn

/-! ## The pass -/

/-- A run that comes to the last loop in the queue, with a dead letter, while
its current dispatch is none. -/
def Mistaken (db : Db) (q : String) : Prop :=
  ∃ run, db.runs.find? q = some run ∧ run.Waiting ∧ HasDeadLetter db q ∧ ¬ DispatchDead db q

/-- **A stale dead letter**: the run has a dispatch in the dead letters which
is not its current one, or will not be once the reaper has put the run back
into the queue, and no repair before the last loop ends the run. -/
def StaleDeadLetter (db : Db) (current now : Time) (resolver : Resolver) (q : String) : Prop :=
  ∃ run, db.runs.find? q = some run ∧ HasDeadLetter db q ∧
    ((Spared db current resolver run ∧ ¬ DispatchDead db q) ∨
      (run.dispatchState = .claimed ∧ run.LeaseExpired now ∧
        Spared db current resolver (run.reap now)))

/-- Of the queued runs, the pass fails only those whose current dispatch is in
the dead letters. -/
def FailsOnlyCurrent (db : Db) (current now : Time) (resolver : Resolver) : Prop :=
  ∀ db₃ db₄, beforeDeadLetters db current now resolver = .ok db₃ →
    repairDeadLetters current db₃ (deadDispatches db₃) = .ok db₄ →
    ∀ q run r, db₃.runs.find? q = some run → run.dispatchState = .queued →
      db₄.runs.find? q = some r → r.FailedOnDispatch → DispatchDead db₃ q

section Pass

variable {q : String} {current now : Time} {resolver : Resolver} {db db' db₃ db₄ : Db}

theorem SameView.hasDeadLetter (h : SameView q db db') :
    HasDeadLetter db' q ↔ HasDeadLetter db q := by
  unfold HasDeadLetter
  rw [h.flushed]

theorem SameView.dispatchDead (h : SameView q db db') : DispatchDead db' q ↔ DispatchDead db q := by
  unfold DispatchDead lastDispatch dispatches
  rw [h.flushed, h.fresh]

/-- A run that comes to the last loop like that has been spared by the loop
over the runs. -/
theorem mistaken_iff (h : repairRuns current now resolver db db.runs.rows = .ok db₃) :
    Mistaken db₃ q ↔ ∃ run, db.runs.find? q = some run ∧ Spared db current resolver run ∧
      HasDeadLetter db q ∧ ¬ DispatchDead db q := by
  constructor
  · rintro ⟨run₃, hrow₃, hw, hdead₃, hcur₃⟩
    have hdead : HasDeadLetter db q := by
      by_contra hno
      exact repairRuns_noDeadLetter hno h hdead₃
    rcases hfind : db.runs.find? q with _ | run
    · have hsame := repairRuns_sameView (Table.find?_eq_none.mp hfind) h
      rw [hsame.row, hfind] at hrow₃
      cases hrow₃
    · obtain ⟨hmem, rfl⟩ := Table.find?_eq_some.mp hfind
      obtain ⟨db₁, db₂, b, hbefore, hturn, hafter⟩ := repairRuns_turn hmem h
      rcases repairRun_dead (hbefore.row.trans hfind) (hbefore.hasDeadLetter.mpr hdead) hturn with
        ⟨rfl, hspared⟩ | ⟨r, hr, hnot⟩
      · have hsame := hbefore.trans hafter
        rw [hsame.row, hfind] at hrow₃
        cases hrow₃
        exact ⟨_, rfl, (hspared hw).congr hbefore.plans.symm hbefore.definitions.symm, hdead,
          fun hcur => hcur₃ (hsame.dispatchDead.mpr hcur)⟩
      · rw [hafter.row, hr] at hrow₃
        cases hrow₃
        exact absurd hw hnot
  · rintro ⟨run, hrow, hspared, hdead, hcur⟩
    obtain ⟨hmem, rfl⟩ := Table.find?_eq_some.mp hrow
    obtain ⟨db₁, db₂, b, hbefore, hturn, hafter⟩ := repairRuns_turn hmem h
    rw [repairRun_spared (hspared.congr hbefore.plans hbefore.definitions)
      (hbefore.hasDeadLetter.mpr hdead)] at hturn
    cases hturn
    have hsame := hbefore.trans hafter
    exact ⟨run, hsame.row.trans hrow, hspared.waiting, hsame.hasDeadLetter.mpr hdead,
      fun hcur₃ => hcur (hsame.dispatchDead.mp hcur₃)⟩

theorem mistaken_iff_stale (h : beforeDeadLetters db current now resolver = .ok db₃) :
    Mistaken db₃ q ↔ StaleDeadLetter db current now resolver q := by
  obtain ⟨⟨db₁, ids⟩, hreap, hruns⟩ := bind_ok.mp h
  rw [mistaken_iff hruns]
  have hbuckets : SameView q db₁ (reconcileAdmissionBuckets db.buckets db₁) :=
    ⟨rfl, rfl, rfl, rfl, rfl⟩
  cases (reapExpired_view hreap q).of_sameView (.refl q db) hbuckets with
  | kept hsame hno =>
    constructor
    · rintro ⟨run, hrow, hspared, hdead, hcur⟩
      exact ⟨run, hsame.row.symm.trans hrow, hsame.hasDeadLetter.mp hdead,
        Or.inl ⟨hspared.congr hsame.plans.symm hsame.definitions.symm,
          fun h => hcur (hsame.dispatchDead.mpr h)⟩⟩
    · rintro ⟨run, hrow, hdead, ⟨hspared, hcur⟩ | ⟨hclaimed, hlapsed, _⟩⟩
      · exact ⟨run, hsame.row.trans hrow, hspared.congr hsame.plans hsame.definitions,
          hsame.hasDeadLetter.mpr hdead, fun h => hcur (hsame.dispatchDead.mp h)⟩
      · exact absurd ⟨hclaimed, hlapsed⟩ (hno run hrow)
  | requeued run hrow hsel hexec hrow' hflushed hfresh hplans hdefs =>
    have hdeadIff : HasDeadLetter (reconcileAdmissionBuckets db.buckets db₁) q ↔
        HasDeadLetter db q := by
      unfold HasDeadLetter
      rw [hflushed]
    have hcur : ¬ DispatchDead (reconcileAdmissionBuckets db.buckets db₁) q := by
      obtain ⟨e, he, hnew⟩ := hfresh
      rintro ⟨e', hlast, hdead⟩
      unfold lastDispatch dispatches at hlast
      rw [hnew, ← List.append_assoc, List.getLast?_append] at hlast
      cases hlast
      cases he.symm.trans hdead
    constructor
    · rintro ⟨run₂, hrow₂, hspared, hdead, _⟩
      cases hrow'.symm.trans hrow₂
      exact ⟨run, hrow, hdeadIff.mp hdead, Or.inr ⟨hsel.1, hsel.2,
        hspared.congr hplans.symm hdefs.symm⟩⟩
    · rintro ⟨run₀, hrow₀, hdead, ⟨hspared, _⟩ | ⟨_, _, hspared⟩⟩
      · cases hrow.symm.trans hrow₀
        exact nomatch hsel.1.symm.trans hspared.waiting.2
      · cases hrow.symm.trans hrow₀
        exact ⟨_, hrow', hspared.congr hplans hdefs, hdeadIff.mpr hdead, hcur⟩
  | cancelled run hrow hsel hexec hended =>
    obtain ⟨r, hr, hd⟩ := hended
    constructor
    · rintro ⟨run₂, hrow₂, hspared, _⟩
      cases hr.symm.trans hrow₂
      exact nomatch hd.symm.trans hspared.waiting.2
    · rintro ⟨run₀, hrow₀, _, ⟨hspared, _⟩ | ⟨_, _, hspared⟩⟩
      · cases hrow.symm.trans hrow₀
        exact nomatch hsel.1.symm.trans hspared.waiting.2
      · cases hrow.symm.trans hrow₀
        have hexec' : packageExecutable db (run.reap now) = packageExecutable db run := rfl
        rw [hspared.executable, hexec] at hexec'
        cases hexec'

/-- **A pass of the reconciler** fails only runs whose current dispatch is in
the dead letters exactly when there is no stale dead letter before it. -/
theorem dispatch_failed_iff (h : runOnce db current now resolver = .ok db') :
    FailsOnlyCurrent db current now resolver ↔
      ∀ q, ¬ StaleDeadLetter db current now resolver q := by
  rw [runOnce_eq] at h
  obtain ⟨db₃, hbefore, h⟩ := bind_ok.mp h
  obtain ⟨db₄, hloop, _⟩ := bind_ok.mp h
  constructor
  · intro honly q hstale
    obtain ⟨run, hrow, hw, ⟨e, he⟩, hcur⟩ := (mistaken_iff_stale hbefore).mpr hstale
    rcases repairDeadLetters_row hrow hloop with ⟨_, _, r, hr, hfailed⟩ | ⟨hno, _⟩
    · exact hcur (honly db₃ db₄ hbefore hloop q run r hrow hw.2 hr hfailed)
    · exact hno ⟨hw, e, mem_deadDispatches.mpr he⟩
  · intro hno db₃' db₄' hbefore' hloop' q run r hrow hqueued hr hfailed
    cases hbefore.symm.trans hbefore'
    cases hloop.symm.trans hloop'
    by_contra hcur
    rcases repairDeadLetters_row hrow hloop with ⟨hw, ⟨e, he⟩, _⟩ | ⟨_, hkept⟩
    · exact hno q ((mistaken_iff_stale hbefore).mp
        ⟨run, hrow, hw, ⟨e, mem_deadDispatches.mp he⟩, hcur⟩)
    · cases hkept.symm.trans hr
      exact nomatch hqueued.symm.trans hfailed.2.1

/-- The lease of the claimed run has expired; none of its dispatches is lost. -/
theorem dispatch_failed_none_lost :
    ∃ db', runOnce (reach {} claimedRun).db (seconds 100) (seconds 100) none = .ok db' ∧
      FailsOnlyCurrent (reach {} claimedRun).db (seconds 100) (seconds 100) none := by
  obtain ⟨db', h⟩ :
      ∃ db', runOnce (reach {} claimedRun).db (seconds 100) (seconds 100) none = .ok db' :=
    ⟨_, rfl⟩
  refine ⟨db', h, (dispatch_failed_iff h).mpr fun q hstale => ?_⟩
  obtain ⟨_, _, ⟨e, he, hdead⟩, _⟩ := hstale
  have hstatus : ∀ e ∈ (reach {} claimedRun).db.outbox, e.status ≠ .deadLetter := by decide
  exact hstatus e (List.mem_filter.mp he).1 hdead

/-- The worker of a run is lost after a checkpoint, and so is the dispatch that
the reaper sends; the run is failed for it and retried. -/
def retriedRun : List Event :=
  claimedRun ++
    [after 1 (.write 0 (.saveCheckpoint "draft" {})),
     after 100 .reapExpired,
     after 1 (.deliver 1 .deadLetter none),
     after 1 (.repairDeadLetter 1),
     after 1 (.retry none "run-1" "caller" false none)]

/-- The retried run is failed again, though its new dispatch is pending. -/
theorem retried_run_failed_again :
    (∃ db', runOnce (reach {} retriedRun).db (seconds 110) (seconds 110) none = .ok db') ∧
    ¬ FailsOnlyCurrent (reach {} retriedRun).db (seconds 110) (seconds 110) none := by
  refine ⟨⟨_, rfl⟩, fun honly => ?_⟩
  obtain ⟨db₃, db₄, run, r, hbefore, hloop, hrow, hqueued, hr, hfailed, hlast⟩ :
      ∃ db₃ db₄ run r,
        beforeDeadLetters (reach {} retriedRun).db (seconds 110) (seconds 110) none = .ok db₃ ∧
        repairDeadLetters (seconds 110) db₃ (deadDispatches db₃) = .ok db₄ ∧
        db₃.runs.find? "run-1" = some run ∧ run.dispatchState = .queued ∧
        db₄.runs.find? "run-1" = some r ∧ r.FailedOnDispatch ∧
        (lastDispatch db₃ "run-1").map (·.status) = some .pending :=
    ⟨_, _, _, _, rfl, rfl, rfl, rfl, rfl, ⟨rfl, rfl, rfl⟩, rfl⟩
  obtain ⟨e, he, hdead⟩ := honly db₃ db₄ hbefore hloop "run-1" run r hrow hqueued hr hfailed
  rw [he, Option.map_some, hdead] at hlast
  cases hlast

end Pass

end ReconciliationService

end AgentRuntime
