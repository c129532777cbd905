import AgentRuntime.ReconcileTurns

/-!
# Queued runs and their dispatch

A queued run is taken up only when the dispatcher hands its `run_dispatch`
event to a worker, so a claimable run with no event left to hand out waits
for the reconciler. This file settles what one pass does about it.

Fix a run `q`. A step of the pass either leaves everything the repairs read
of `q` as it was (`SameView`), or leaves `q` `Served`: not claimable, or
with a dispatch on its way. That is `Passes`; it composes, and every phase
of the pass satisfies it, because a repair that did something to `q` leaves
it served (`repairRun_own`) and a repair of another run does not touch it
(`repairRun_sameView`). So an unserved `q` at the end was seen unchanged
throughout, its own turn did nothing, and every guard of that turn was
false. `repairMissingRunDispatch` asks for the status `pending`, so for a
run queued by a human decision no guard is left that looks at its dispatch:
`Stranded` collects the guards, and `runOnce_served` says that the pass
serves every claimable run exactly when no run is stranded before it.
-/

namespace AgentRuntime

open Keyed Fencing

namespace ReconciliationService

/-! ## Dispatches on their way -/

/-- The dispatcher will hand the event out, or has it in hand. -/
def onItsWay (current : Time) (e : RuntimeOutboxEvent) : Bool :=
  decide (e.status = .pending) || delivering current e

/-- The dispatch events of a run that the commit leaves in the outbox. -/
def dispatches (db : Db) (q : String) : List RuntimeOutboxEvent :=
  dispatchEvents db q ++ db.outboxNew.filter (isDispatchOf q)

/-- A dispatch of the run is pending, or being delivered under a lease that
has not expired. -/
def HasDispatch (db : Db) (current : Time) (q : String) : Prop :=
  ∃ e ∈ dispatches db q, onItsWay current e = true

instance (db : Db) (current : Time) (q : String) : Decidable (HasDispatch db current q) := by
  unfold HasDispatch; infer_instance

/-- The run cannot be claimed, or its dispatch is on its way. -/
def Served (current : Time) (q : String) (db : Db) : Prop :=
  ∀ run, db.runs.find? q = some run → run.Claimable → HasDispatch db current q

/-- **A stranded run**: queued by a human decision, with no dispatch on its
way, and not one that the pass ends for another reason. -/
structure Stranded (db : Db) (current : Time) (resolver : Resolver) (run : AgentRun) :
    Prop where
  claimable : run.Claimable
  waiting : run.status = .waitingHuman
  lost : ¬ HasDispatch db current run.runId
  beforeDeadline : current < run.runDeadlineAt
  belowActiveLimit : activeLimitReached db run = false
  authorized : authorizationStale resolver run = false
  executable : packageExecutable db run = true

theorem dispatches_commit (db : Db) (q : String) : dispatches db.commit q = dispatches db q := by
  simp [dispatches, dispatchEvents, Db.commit]

/-! ## Steps that do not touch a run -/

/-- What the repairs read of run `q`, and its dispatches, are as they were. -/
structure SameView (q : String) (db db' : Db) : Prop where
  row : db'.runs.find? q = db.runs.find? q
  flushed : dispatchEvents db' q = dispatchEvents db q
  fresh : db'.outboxNew.filter (isDispatchOf q) = db.outboxNew.filter (isDispatchOf q)
  plans : db'.plans = db.plans
  definitions : db'.definitions = db.definitions

namespace SameView

variable {q : String} {current : Time} {resolver : Resolver} {db db₁ db' : Db}

theorem refl (q : String) (db : Db) : SameView q db db :=
  ⟨rfl, rfl, rfl, rfl, rfl⟩

theorem trans (h₁ : SameView q db db₁) (h₂ : SameView q db₁ db') : SameView q db db' where
  row := h₂.row.trans h₁.row
  flushed := h₂.flushed.trans h₁.flushed
  fresh := h₂.fresh.trans h₁.fresh
  plans := h₂.plans.trans h₁.plans
  definitions := h₂.definitions.trans h₁.definitions

theorem symm (h : SameView q db db') : SameView q db' db where
  row := h.row.symm
  flushed := h.flushed.symm
  fresh := h.fresh.symm
  plans := h.plans.symm
  definitions := h.definitions.symm

theorem hasDispatch (h : SameView q db db') :
    HasDispatch db' current q ↔ HasDispatch db current q := by
  unfold HasDispatch dispatches
  rw [h.flushed, h.fresh]

theorem served (h : SameView q db db') (hs : Served current q db) : Served current q db' := by
  intro run hrun hcl
  rw [h.row] at hrun
  exact h.hasDispatch.mpr (hs run hrun hcl)

theorem stranded {run : AgentRun} (h : SameView run.runId db db')
    (hs : Stranded db current resolver run) : Stranded db' current resolver run where
  claimable := hs.claimable
  waiting := hs.waiting
  lost := fun hd => hs.lost (h.hasDispatch.mp hd)
  beforeDeadline := hs.beforeDeadline
  belowActiveLimit := by
    have := hs.belowActiveLimit
    unfold activeLimitReached Db.plan? at *
    rwa [h.plans]
  authorized := hs.authorized
  executable := by
    have := hs.executable
    unfold packageExecutable Db.definition? at *
    rwa [h.definitions]

end SameView

section Frames

variable {q : String} {db db' : Db} {run : AgentRun}

theorem sameView_put (hq : run.runId ≠ q) :
    SameView q db { db with runs := db.runs.put run } :=
  ⟨Table.find?_put_ne fun h => hq h.symm, rfl, rfl, rfl, rfl⟩

theorem sameView_transitionRun {limits : AdmissionLimits} {old : Option DispatchState}
    {new : DispatchState} (h : transitionRun limits db run old new = .ok db') :
    SameView q db db' := by
  obtain ⟨buckets, rfl, _⟩ := transitionRun_ok h
  exact ⟨rfl, rfl, rfl, rfl, rfl⟩

/-- A callback is no dispatch, and moves the row of its own run only. -/
theorem sameView_appendCallback {status : RunStatus} (hq : run.runId ≠ q)
    (h : appendCallback db run status = .ok db') : SameView q db db' := by
  obtain ⟨event, _, hev⟩ := appendCallback_ok h
  obtain ⟨events, _, rfl⟩ := appendCallbackEvent_ok hev
  refine ⟨Table.find?_put_ne fun h => hq h.symm, rfl, ?_, rfl, rfl⟩
  rw [List.filter_append]
  simp [isDispatchOf, callbackDelivery, RuntimeOutboxEvent.isRunDispatch]

theorem sameView_dispatch {id reason : String} (hq : id ≠ q) :
    SameView q db (appendRunDispatch db id reason) := by
  refine ⟨rfl, rfl, ?_, rfl, rfl⟩
  show (db.outboxNew ++ _).filter _ = _
  rw [List.filter_append]
  simp [isDispatchOf, hq]

/-- A run is ended: its row, the buckets and a callback. -/
theorem sameView_ended {limits : AdmissionLimits} {old : Option DispatchState}
    {status : RunStatus} {db₁ : Db} (hq : run.runId ≠ q)
    (hadm : transitionRun limits { db with runs := db.runs.put run } run old .finished = .ok db₁)
    (hcb : appendCallback db₁ run status = .ok db') : SameView q db db' :=
  ((sameView_put hq).trans (sameView_transitionRun hadm)).trans (sameView_appendCallback hq hcb)

/-- A run is queued: its row, the buckets and a dispatch. -/
theorem sameView_queued {limits : AdmissionLimits} {old : Option DispatchState}
    {id reason : String} (hq : run.runId ≠ q)
    (hadm : transitionRun limits { db with runs := db.runs.put run } run old .queued = .ok db')
    (hid : run.runId = id) : SameView q db (appendRunDispatch db' id reason) :=
  ((sameView_put hq).trans (sameView_transitionRun hadm)).trans (sameView_dispatch (hid ▸ hq))

/-- Replaying an event of run `id` leaves the events of the others alone. -/
theorem filter_replayLast {id : String} (hq : id ≠ q) :
    ∀ l : List RuntimeOutboxEvent,
      (replayLast (isDispatchOf id) l).filter (isDispatchOf q) = l.filter (isDispatchOf q)
  | [] => rfl
  | e :: rest => by
    unfold replayLast
    split
    next h =>
      have hid : e.aggregateId = id := of_decide_eq_true (Bool.and_eq_true_iff.mp h.1).2
      have he : isDispatchOf q e = false := by simp [isDispatchOf, hid, hq]
      have hr : isDispatchOf q (replayed e) = false := by simp [isDispatchOf, replayed, hid, hq]
      rw [List.filter_cons_of_neg (by simp [hr]), List.filter_cons_of_neg (by simp [he])]
    · rw [List.filter_cons, List.filter_cons, filter_replayLast hq rest]

end Frames

/-! ## One turn, seen from another run -/

section Turns

variable {q : String} {current now : Time} {resolver : Resolver} {db db' : Db} {run : AgentRun}

theorem key_of_stopWrite {write : AgentRun → AgentRun} (hw : StopWrite current write) :
    (write run).runId = run.runId := by
  cases hw <;> rfl

theorem updates_sameView (hq : run.runId ≠ q) :
    Updates (SameView q) current now resolver db run where
  terminate status code _ := by
    refine (terminate_repairs db run status code).imp fun db' h => ?_
    obtain ⟨r, db₁, hfind, _, hadm, hcb⟩ := h
    have hr : (r.terminate current status code).runId ≠ q := by
      show r.runId ≠ q
      rwa [Table.key_of_find? hfind]
    exact sameView_ended hr hadm hcb
  stop write hw := by
    refine (requestStop_repairs db run write).imp fun db' h => ?_
    obtain ⟨r, hfind, _, rfl⟩ := h
    have hr : r.runId ≠ q := by rwa [Table.key_of_find? hfind]
    exact sameView_put (by rwa [key_of_stopWrite hw])
  purge := by
    refine (repairPurge_repairs db run).imp fun db' h => ?_
    obtain ⟨_, r, hfind, _, rfl⟩ := h
    have hr : r.runId ≠ q := by rwa [Table.key_of_find? hfind]
    exact ⟨Table.find?_put_ne fun h => hr h.symm, rfl, rfl, rfl, rfl⟩
  missing := by
    refine (repairMissingRunDispatch_repairs db run).imp fun db' h => ?_
    rcases h with ⟨_, rfl⟩ | ⟨_, rfl⟩
    · exact sameView_dispatch hq
    · exact ⟨rfl, filter_replayLast hq _, rfl, rfl, rfl⟩
  requeue _ := by
    refine (requeueTimeoutFallback_repairs db run).imp fun db' h => ?_
    obtain ⟨r, db₁, hfind, _, _, hadm, rfl⟩ := h
    have hr : (r.requeueFallback current).runId ≠ q := by
      show r.runId ≠ q
      rwa [Table.key_of_find? hfind]
    exact sameView_queued hr hadm rfl

theorem repairRun_sameView {b : Bool} (hq : run.runId ≠ q)
    (h : repairRun db current now resolver run = .ok (db', b)) : SameView q db db' := by
  rcases repairRun_repairs (updates_sameView hq) db' b h with ⟨_, hdb⟩ | ⟨_, hsame⟩
  · rw [hdb]
    exact .refl q db
  · exact hsame

/-! ## One turn, seen from its own run -/

theorem served_of_row (r : AgentRun) (hrow : db.runs.find? q = some r) (hno : ¬ r.Claimable) :
    Served current q db := by
  intro r' hr hcl
  cases hrow.symm.trans hr
  exact absurd hcl hno

theorem served_of_dispatch (h : HasDispatch db current q) : Served current q db :=
  fun _ _ _ => h

theorem hasDispatch_append (reason : String) :
    HasDispatch (appendRunDispatch db q reason) current q := by
  refine ⟨{ aggregateId := q, payload := .runDispatch reason }, ?_, by simp [onItsWay]⟩
  unfold dispatches appendRunDispatch
  simp [isDispatchOf, RuntimeOutboxEvent.isRunDispatch]

/-- Replaying leaves a pending event of the run, where it has an event at
all. -/
theorem replayLast_pending {e : RuntimeOutboxEvent} (he : isDispatchOf q e = true) :
    ∀ {l : List RuntimeOutboxEvent}, e ∈ l →
      ∃ e' ∈ replayLast (isDispatchOf q) l, isDispatchOf q e' = true ∧ e'.status = .pending
  | e₀ :: rest, hmem => by
    unfold replayLast
    split
    next h => exact ⟨replayed e₀, List.mem_cons_self .., h.1, rfl⟩
    next h =>
      -- the event replayed is further on, also when `e` itself is `e₀`
      obtain ⟨e₁, h₁, hp⟩ : ∃ e₁ ∈ rest, isDispatchOf q e₁ = true := by
        rcases List.mem_cons.mp hmem with rfl | hrest
        · have hany : rest.any (isDispatchOf q) = true := by
            by_contra hno
            exact h ⟨he, Bool.eq_false_iff.mpr hno⟩
          exact List.any_eq_true.mp hany
        · exact ⟨e, hrest, he⟩
      obtain ⟨e', hmem', he'⟩ := replayLast_pending hp h₁
      exact ⟨e', List.mem_cons_of_mem _ hmem', he'⟩

theorem hasDispatch_replay (hne : dispatchEvents db q ≠ []) :
    HasDispatch { db with outbox := replayLast (isDispatchOf q) db.outbox } current q := by
  obtain ⟨e, he⟩ := List.exists_mem_of_ne_nil _ hne
  obtain ⟨hmem, hp⟩ := List.mem_filter.mp he
  obtain ⟨e', hmem', hp', hs⟩ := replayLast_pending hp hmem
  refine ⟨e', List.mem_append_left _ (List.mem_filter.mpr ⟨hmem', hp'⟩), ?_⟩
  simp [onItsWay, hs]

/-- A run that was ended is served. -/
theorem served_of_ended (run : AgentRun) {limits : AdmissionLimits} {old : Option DispatchState}
    {status : RunStatus} {r : AgentRun} {db₁ : Db} (hfind : db.runs.find? run.runId = some r)
    (hd : run.dispatchState = .finished)
    (hadm : transitionRun limits { db with runs := db.runs.put run } run old .finished = .ok db₁)
    (hcb : appendCallback db₁ run status = .ok db') : Served current run.runId db' := by
  have hrow : (db.runs.put run).find? run.runId = some run := Table.find?_put_self hfind
  obtain ⟨event, _, hev⟩ := appendCallback_ok hcb
  obtain ⟨events, _, rfl⟩ := appendCallbackEvent_ok hev
  obtain ⟨buckets, rfl, _⟩ := transitionRun_ok hadm
  refine served_of_row run.nextEvent (Table.find?_put_self hrow) fun hcl => ?_
  exact absurd hcl.1 (by simp [AgentRun.nextEvent, hd])

theorem served_of_terminates {loaded : AgentRun} {status : RunStatus} {code : String}
    (h : Terminates current loaded status code db db') : Served current loaded.runId db' := by
  obtain ⟨r, db₁, hfind, _, hadm, hcb⟩ := h
  have hkey := Table.key_of_find? hfind
  rw [← hkey] at hfind ⊢
  exact served_of_ended (r.terminate current status code) hfind rfl hadm hcb

theorem updates_served (hrow : db.runs.find? run.runId = some run) :
    Updates (fun _ db' => Served current run.runId db') current now resolver db run where
  terminate status code _ :=
    (terminate_repairs db run status code).imp fun _ h => served_of_terminates h
  stop write hw := by
    refine (requestStop_repairs db run write).imp fun db' h => ?_
    obtain ⟨r, hfind, hd, rfl⟩ := h
    have hkey := Table.key_of_find? hfind
    refine served_of_row (write r) ?_ ?_
    · rw [← hkey, ← key_of_stopWrite hw] at hfind ⊢
      exact Table.find?_put_self hfind
    · cases hw <;> exact fun hcl => by
        simpa [AgentRun.requestCancel, AgentRun.requestCancelWith] using hcl.2.2
  purge := by
    refine (repairPurge_repairs db run).imp fun db' h => ?_
    obtain ⟨hd, r, hfind, _, rfl⟩ := h
    cases hrow.symm.trans hfind
    refine served_of_row (run.purge now) (Table.find?_put_self hfind) fun hcl => ?_
    exact absurd hcl.1 (by simp [AgentRun.purge, hd])
  missing := by
    refine (repairMissingRunDispatch_repairs db run).imp fun db' h => ?_
    rcases h with ⟨_, rfl⟩ | ⟨hne, rfl⟩
    · exact served_of_dispatch (hasDispatch_append _)
    · exact served_of_dispatch (hasDispatch_replay hne)
  requeue _ := by
    refine (requeueTimeoutFallback_repairs db run).imp fun db' h => ?_
    obtain ⟨r, db₁, hfind, _, _, _, rfl⟩ := h
    rw [Table.key_of_find? hfind]
    exact served_of_dispatch (hasDispatch_append _)

/-- The turn of a run does nothing, or leaves it served. -/
theorem repairRun_own {b : Bool} (hrow : db.runs.find? run.runId = some run)
    (h : repairRun db current now resolver run = .ok (db', b)) :
    (b = false ∧ db' = db) ∨ Served current run.runId db' := by
  rcases repairRun_repairs (updates_served hrow) db' b h with hno | ⟨_, hserved⟩
  · exact Or.inl hno
  · exact Or.inr hserved

/-! ## A turn that did nothing -/

theorem orElse_false {R : Db → Db → Prop} {first : Result (Db × Bool)}
    {next : Db → Result (Db × Bool)} (h₁ : Repairs R db first)
    (h : orElse first next = .ok (db', false)) :
    first = .ok (db, false) ∧ next db = .ok (db', false) := by
  rcases orElse_ok h with ⟨_, hb⟩ | ⟨db₁, hfirst, hnext⟩
  · cases hb
  · rcases h₁ db₁ false hfirst with ⟨_, hdb⟩ | ⟨hb, _⟩
    · rw [hdb] at hfirst hnext
      exact ⟨hfirst, hnext⟩
    · cases hb

/-- The missing dispatch of a pending queued run is not repaired when the
dispatcher has one in hand, or has given one up. -/
theorem repairMissingRunDispatch_false (hs : run.status = .pending)
    (hd : run.dispatchState = .queued)
    (h : repairMissingRunDispatch db current run = (db, false)) :
    ∃ e ∈ dispatchEvents db run.runId, onItsWay current e = true ∨ e.status = .deadLetter := by
  unfold repairMissingRunDispatch at h
  rw [if_pos ⟨hs, hd⟩] at h
  simp only at h
  split at h
  next hany =>
    obtain ⟨e, hmem, he⟩ := List.any_eq_true.mp hany
    rcases of_decide_eq_true he with hp | hp
    · exact ⟨e, hmem, Or.inl (by simp [onItsWay, hp])⟩
    · exact ⟨e, hmem, Or.inr hp⟩
  · split at h
    next hany =>
      obtain ⟨e, hmem, he⟩ := List.any_eq_true.mp hany
      exact ⟨e, hmem, Or.inl (by simp [onItsWay, he])⟩
    · split at h <;> simp at h

/-- **Why a turn leaves a claimable run without a dispatch**: the run is
stranded, or its dispatch is a dead letter. -/
theorem repairRun_unserved {b : Bool} (hrow : db.runs.find? run.runId = some run)
    (hcl : run.Claimable) (hlost : ¬ HasDispatch db current run.runId)
    (h : repairRun db current now resolver run = .ok (db', b)) (hdb : ¬ Served current run.runId db') :
    Stranded db current resolver run ∨
      (run.status = .pending ∧ ∃ e ∈ dispatchEvents db run.runId, e.status = .deadLetter) := by
  rcases repairRun_own hrow h with ⟨rfl, rfl⟩ | hserved
  · have u : Updates (fun _ db' => Served current run.runId db') current now resolver _ run :=
      updates_served hrow
    have e := u.toEnds
    have hun : run.Unattended := Or.inr (Or.inl hcl.1)
    have hidle : Idle run := by
      refine ⟨hun, ?_⟩
      rcases hcl.2.1 with hs | hs <;> rw [hs] <;> rfl
    unfold repairRun at h
    obtain ⟨_, h⟩ := orElse_false u.purge h
    obtain ⟨hdeadline, h⟩ := orElse_false (repairRunDeadline_repairs e) h
    obtain ⟨hactive, h⟩ := orElse_false (repairActiveElapsedTimeout_repairs e) h
    obtain ⟨hauth, h⟩ := orElse_false (repairAuthorizationChanged_repairs e) h
    obtain ⟨hrevoked, h⟩ := orElse_false (repairRevokedDefinition_repairs e) h
    obtain ⟨_, h⟩ := orElse_false (repairHeldTimeout_repairs e) h
    obtain ⟨_, h⟩ := orElse_false (repairQueuedTimeout_repairs e) h
    obtain ⟨hmissing, _⟩ := orElse_false u.missing h
    rcases hcl.2.1 with hs | hs
    · obtain ⟨ev, hmem, hway | hdead⟩ :=
        repairMissingRunDispatch_false hs hcl.1 (Except.ok.inj hmissing)
      · exact absurd ⟨ev, List.mem_append_left _ hmem, hway⟩ hlost
      · exact Or.inr ⟨hs, ev, hmem, hdead⟩
    · exact Or.inl {
        claimable := hcl
        waiting := hs
        lost := hlost
        beforeDeadline := repairRunDeadline_false hrow hidle hdeadline
        belowActiveLimit := repairActiveElapsedTimeout_false hrow hidle hactive
        authorized := repairAuthorizationChanged_false hrow hun hauth
        executable := repairRevokedDefinition_false hrow hun hrevoked }
  · exact absurd hserved hdb

/-- The turn of a stranded run does nothing: none of the repairs is for a
queued run that waits for a human. -/
theorem repairRun_stranded (h : Stranded db current resolver run) :
    repairRun db current now resolver run = .ok (db, false) := by
  have hq := h.claimable.1
  have hpurge : repairPurge db now run = .ok (db, false) :=
    if_neg fun hp => by simp [hq] at hp
  have hdeadline : repairRunDeadline db current run = .ok (db, false) := if_pos h.beforeDeadline
  have hactive : repairActiveElapsedTimeout db current run = .ok (db, false) :=
    if_neg (by simp [h.belowActiveLimit])
  have hauth : repairAuthorizationChanged db current resolver run = .ok (db, false) :=
    if_pos (by simp [h.authorized])
  have hrevoked : repairRevokedDefinition db current run = .ok (db, false) := if_pos h.executable
  have hheld : repairHeldTimeout db current run = .ok (db, false) :=
    if_neg fun hh => by simp [h.waiting] at hh
  have hqueued : repairQueuedTimeout db current run = .ok (db, false) :=
    if_neg fun hh => by simp [h.waiting] at hh
  have hmissing : repairMissingRunDispatch db current run = (db, false) :=
    if_neg fun hh => by simp [h.waiting] at hh
  have hwait : repairWaitingHumanTimeout db current run = .ok (db, false) :=
    if_neg fun hh => by simp [hq] at hh
  unfold repairRun orElse
  rw [hpurge]
  simp only [bind, Except.bind, hdeadline, hactive, hauth, hrevoked, hheld, hqueued, hmissing,
    hwait, pure, Except.pure, Bool.false_eq_true, if_false]

end Turns

/-! ## The pass -/

/-- What a part of the pass does about run `q`. -/
structure Passes (current : Time) (resolver : Resolver) (q : String) (db db' : Db) : Prop where
  progress : SameView q db db' ∨ Served current q db'
  keeps : ∀ run, db.runs.find? q = some run → Stranded db current resolver run →
    SameView q db db'

section Pass

variable {q : String} {current now : Time} {resolver : Resolver} {db db₁ db' : Db}

namespace Passes

theorem same (h : SameView q db db') : Passes current resolver q db db' :=
  ⟨Or.inl h, fun _ _ _ => h⟩

theorem trans (h₁ : Passes current resolver q db db₁) (h₂ : Passes current resolver q db₁ db') :
    Passes current resolver q db db' where
  progress := by
    rcases h₂.progress with hsame₂ | hserved
    · rcases h₁.progress with hsame₁ | hserved
      · exact Or.inl (hsame₁.trans hsame₂)
      · exact Or.inr (hsame₂.served hserved)
    · exact Or.inr hserved
  keeps run hrow hs := by
    have hsame₁ := h₁.keeps run hrow hs
    refine hsame₁.trans (h₂.keeps run (hsame₁.row.trans hrow) ?_)
    rw [← Table.key_of_find? hrow] at hsame₁
    exact hsame₁.stranded hs

/-- A run served before a part of the pass is served after it. -/
theorem served (h : Passes current resolver q db db') (hs : Served current q db) :
    Served current q db' := by
  rcases h.progress with hsame | hserved
  · exact hsame.served hs
  · exact hserved

/-- A run not served after a part of the pass was seen unchanged by it. -/
theorem sameView (h : Passes current resolver q db db') (hno : ¬ Served current q db') :
    SameView q db db' :=
  h.progress.resolve_right hno

end Passes

/-! ### The reaper and the buckets -/

theorem reapOne_passes {selected : AgentRun} {b : Bool}
    (h : LeaseService.reapOne db now selected = .ok (db', b)) :
    Passes current resolver q db db' := by
  unfold LeaseService.reapOne at h
  split at h
  · cases h
    exact .same (.refl q db)
  next run hfind =>
    split at h
    next hc =>
      by_cases hq : run.runId = q
      · subst hq
        have hrow : db.runs.find? run.runId = some run := by
          rw [Table.key_of_find? hfind]
          exact hfind
        -- a claimed run is not stranded; reaped it has a dispatch, cancelled it is finished
        refine ⟨Or.inr ?_, fun r hr hs => ?_⟩
        · split at h
          · obtain ⟨db₁, hadm, h⟩ := bind_ok.mp h
            cases h
            exact served_of_dispatch (hasDispatch_append _)
          · obtain ⟨db₁, hadm, h⟩ := bind_ok.mp h
            obtain ⟨db₂, hcb, h⟩ := bind_ok.mp h
            cases h
            exact served_of_ended (run.endWith now .cancelled (some "PACKAGE_REVOKED"))
              hrow rfl hadm hcb
        · cases hrow.symm.trans hr
          exact absurd hs.claimable.1 (by simp [hc.2.1])
      · apply Passes.same
        split at h
        · obtain ⟨db₁, hadm, h⟩ := bind_ok.mp h
          cases h
          have hr : (run.reap now).runId ≠ q := hq
          exact sameView_queued hr hadm rfl
        · obtain ⟨db₁, hadm, h⟩ := bind_ok.mp h
          obtain ⟨db₂, hcb, h⟩ := bind_ok.mp h
          cases h
          have hr : (run.endWith now .cancelled (some "PACKAGE_REVOKED")).runId ≠ q := hq
          exact sameView_ended hr hadm hcb
    · cases h
      exact .same (.refl q db)

theorem reapAll_passes : ∀ {l : List AgentRun} {db db' : Db} {ids : List String},
    LeaseService.reapAll now db l = .ok (db', ids) → Passes current resolver q db db'
  | [], db, db', ids, h => by
    cases h
    exact .same (.refl q db)
  | selected :: rest, db, db', ids, h => by
    obtain ⟨⟨db₁, b⟩, hone, h⟩ := bind_ok.mp h
    obtain ⟨⟨db₂, others⟩, hrest, h⟩ := bind_ok.mp h
    cases h
    exact (reapOne_passes hone).trans (reapAll_passes hrest)

/-! ### The loop over the runs -/

theorem repairRuns_append : ∀ {l₁ l₂ : List AgentRun} {db db' : Db},
    repairRuns current now resolver db (l₁ ++ l₂) = .ok db' →
      ∃ db₁, repairRuns current now resolver db l₁ = .ok db₁ ∧
        repairRuns current now resolver db₁ l₂ = .ok db'
  | [], l₂, db, db', h => ⟨db, rfl, h⟩
  | run :: rest, l₂, db, db', h => by
    obtain ⟨⟨db₁, b⟩, hturn, hrest⟩ := bind_ok.mp h
    obtain ⟨db₂, h₁, h₂⟩ := repairRuns_append hrest
    exact ⟨db₂, bind_ok.mpr ⟨(db₁, b), hturn, h₁⟩, h₂⟩

theorem repairRuns_sameView : ∀ {l : List AgentRun} {db db' : Db},
    (∀ run ∈ l, run.runId ≠ q) → repairRuns current now resolver db l = .ok db' →
      SameView q db db'
  | [], db, db', _, h => by
    cases h
    exact .refl q db
  | run :: rest, db, db', hne, h => by
    obtain ⟨⟨db₁, b⟩, hturn, hrest⟩ := bind_ok.mp h
    obtain ⟨hrun, hne'⟩ := List.forall_mem_cons.mp hne
    exact (repairRun_sameView hrun hturn).trans (repairRuns_sameView hne' hrest)

/-- Every run has one turn of its own, and the turns before and after it do
not touch it. -/
theorem repairRuns_turn {run : AgentRun} (hmem : run ∈ db.runs.rows)
    (h : repairRuns current now resolver db db.runs.rows = .ok db') :
    ∃ db₁ db₂ b, SameView run.runId db db₁ ∧
      repairRun db₁ current now resolver run = .ok (db₂, b) ∧ SameView run.runId db₂ db' := by
  obtain ⟨l₁, l₂, hl⟩ := List.append_of_mem hmem
  have hnd := db.runs.nodup
  rw [hl, List.map_append, List.map_cons, List.nodup_append, List.nodup_cons] at hnd
  obtain ⟨_, ⟨hn₂, _⟩, hdis⟩ := hnd
  rw [hl] at h
  obtain ⟨db₁, hbefore, h⟩ := repairRuns_append h
  obtain ⟨⟨db₂, b⟩, hturn, hafter⟩ := bind_ok.mp h
  refine ⟨db₁, db₂, b, repairRuns_sameView (fun r hr => ?_) hbefore, hturn,
    repairRuns_sameView (fun r hr he => ?_) hafter⟩
  · exact hdis r.runId (List.mem_map_of_mem hr) run.runId (List.mem_cons_self ..)
  · exact hn₂ (he ▸ List.mem_map_of_mem hr)

/-! ### The dead letters -/

theorem repairDeadLetter_passes {event : RuntimeOutboxEvent}
    (h : repairDeadLetter db current event = .ok db') : Passes current resolver q db db' := by
  unfold repairDeadLetter at h
  split at h
  · cases h
    exact .same (.refl q db)
  next run hfind =>
    split at h
    next hc =>
      obtain ⟨⟨db₁, b⟩, hterm, h⟩ := bind_ok.mp h
      cases h
      have hkey := Table.key_of_find? hfind
      by_cases hq : run.runId = q
      · subst hq
        refine ⟨?_, fun r hr hs => ?_⟩
        · rcases terminate_repairs db run _ _ _ _ hterm with ⟨_, hdb⟩ | ⟨_, hend⟩
          · rw [hdb]
            exact Or.inl (.refl _ db)
          · exact Or.inr (served_of_terminates hend)
        · rw [hkey] at hr
          cases hfind.symm.trans hr
          exact absurd hc.1 (by simp [hs.waiting])
      · have u : Updates (SameView q) current current resolver db run := updates_sameView hq
        apply Passes.same
        rcases u.terminate _ _ (Or.inr (Or.inl hc.2)) _ _ hterm with ⟨_, hdb⟩ | ⟨_, hsame⟩
        · rw [hdb]
          exact .refl q db
        · exact hsame
    · cases h
      exact .same (.refl q db)

/-- A pending queued run whose dispatch is a dead letter is ended. -/
theorem repairDeadLetter_served {event : RuntimeOutboxEvent} {run : AgentRun}
    (hrow : db.runs.find? event.aggregateId = some run) (hs : run.status = .pending)
    (hd : run.dispatchState = .queued) (h : repairDeadLetter db current event = .ok db') :
    Served current event.aggregateId db' := by
  unfold repairDeadLetter at h
  simp only [hrow, hs, hd, and_self, if_true] at h
  obtain ⟨⟨db₁, b⟩, hterm, h⟩ := bind_ok.mp h
  cases h
  have hkey := Table.key_of_find? hrow
  rw [← hkey] at hrow ⊢
  rcases terminate_repairs db run _ _ _ _ hterm with ⟨hb, _⟩ | ⟨_, hend⟩
  · rw [hb] at hterm
    exact absurd (terminate_hits hrow hterm) (by simp)
  · exact served_of_terminates hend

theorem repairDeadLetters_passes : ∀ {l : List RuntimeOutboxEvent} {db db' : Db},
    repairDeadLetters current db l = .ok db' → Passes current resolver q db db'
  | [], db, db', h => by
    cases h
    exact .same (.refl q db)
  | event :: rest, db, db', h => by
    obtain ⟨db₁, hone, hrest⟩ := bind_ok.mp h
    exact (repairDeadLetter_passes hone).trans (repairDeadLetters_passes hrest)

theorem repairDeadLetters_served {event : RuntimeOutboxEvent} {run : AgentRun}
    (hs : run.status = .pending) (hd : run.dispatchState = .queued) :
    ∀ {l : List RuntimeOutboxEvent} {db db' : Db}, event ∈ l →
      db.runs.find? event.aggregateId = some run → repairDeadLetters current db l = .ok db' →
      Served current event.aggregateId db'
  | e :: rest, db, db', hmem, hrow, h => by
    obtain ⟨db₁, hone, hrest⟩ := bind_ok.mp h
    have hpass : Passes current none event.aggregateId db₁ db' := repairDeadLetters_passes hrest
    rcases List.mem_cons.mp hmem with rfl | hmem'
    · exact hpass.served (repairDeadLetter_served hrow hs hd hone)
    · have hfirst : Passes current none event.aggregateId db db₁ := repairDeadLetter_passes hone
      rcases hfirst.progress with hsame | hserved
      · exact repairDeadLetters_served hs hd hmem' (hsame.row.trans hrow) hrest
      · exact hpass.served hserved

/-! ### The whole pass -/

/-- A run not served at the end of its loop had a turn that found it
unserved and left it so. -/
theorem repairRuns_unserved {run : AgentRun} (hrow : db'.runs.find? q = some run)
    (hno : ¬ Served current q db') (h : repairRuns current now resolver db db.runs.rows = .ok db') :
    SameView q db db' ∧ (Stranded db current resolver run ∨
      (run.status = .pending ∧ ∃ e ∈ dispatchEvents db' q, e.status = .deadLetter)) := by
  rcases hfind : db.runs.find? q with _ | r
  · have hsame := repairRuns_sameView (Table.find?_eq_none.mp hfind) h
    rw [hsame.row, hfind] at hrow
    cases hrow
  · obtain ⟨hmem, rfl⟩ := Table.find?_eq_some.mp hfind
    obtain ⟨db₁, db₂, b, hbefore, hturn, hafter⟩ := repairRuns_turn hmem h
    have hno₂ : ¬ Served current r.runId db₂ := fun hs => hno (hafter.served hs)
    have hrow₁ := hbefore.row.trans hfind
    rcases repairRun_own hrow₁ hturn with ⟨rfl, rfl⟩ | hserved
    · have hsame := hbefore.trans hafter
      cases (hsame.row.trans hfind).symm.trans hrow
      -- an unserved run is claimable and has lost its dispatch
      obtain ⟨hcl, hlost⟩ : run.Claimable ∧ ¬ HasDispatch db₂ current run.runId := by
        by_contra hc
        refine hno₂ fun r' hr' hcl => ?_
        cases hrow₁.symm.trans hr'
        by_contra hlost
        exact hc ⟨hcl, hlost⟩
      refine ⟨hsame, (repairRun_unserved hrow₁ hcl hlost hturn hno₂).imp hbefore.symm.stranded ?_⟩
      rintro ⟨hs, e, he, hdead⟩
      exact ⟨hs, e, by rwa [hafter.flushed], hdead⟩
    · exact absurd hserved hno₂

/-- A stranded run is seen unchanged by the loop. -/
theorem repairRuns_stranded {run : AgentRun} (hmem : run ∈ db.runs.rows)
    (hs : Stranded db current resolver run)
    (h : repairRuns current now resolver db db.runs.rows = .ok db') :
    SameView run.runId db db' := by
  obtain ⟨db₁, db₂, b, hbefore, hturn, hafter⟩ := repairRuns_turn hmem h
  rw [repairRun_stranded (hbefore.stranded hs)] at hturn
  cases hturn
  exact hbefore.trans hafter

/-- **One pass of the reconciler** leaves every claimable run with a dispatch
on its way exactly when no run is stranded before it. -/
theorem runOnce_served (h : runOnce db current now resolver = .ok db') :
    (∀ run ∈ db'.runs.rows, run.Claimable → HasDispatch db' current run.runId) ↔
      ∀ run ∈ db.runs.rows, ¬ Stranded db current resolver run := by
  obtain ⟨⟨db₁, ids⟩, hreap, h⟩ := bind_ok.mp h
  obtain ⟨db₃, hruns, h⟩ := bind_ok.mp h
  obtain ⟨db₄, hdead, h⟩ := bind_ok.mp h
  cases h
  have hbefore : ∀ q, Passes current resolver q db (reconcileAdmissionBuckets db.buckets db₁) :=
    fun q => (reapAll_passes hreap).trans (.same ⟨rfl, rfl, rfl, rfl, rfl⟩)
  have hafter : ∀ q, Passes current resolver q db₃ db₄ := fun q => repairDeadLetters_passes hdead
  constructor
  · intro hall run hmem hs
    have hrow := Table.find?_of_mem hmem
    have hsame₁ := (hbefore run.runId).keeps run hrow hs
    have hrow₂ := hsame₁.row.trans hrow
    have hsame₂ := repairRuns_stranded (Table.mem_of_find? hrow₂) (hsame₁.stranded hs) hruns
    have hsame₃ := (hafter run.runId).keeps run (hsame₂.row.trans hrow₂)
      (hsame₂.stranded (hsame₁.stranded hs))
    have hsame := (hsame₁.trans hsame₂).trans hsame₃
    have hway := hall run (Table.mem_of_find? (hsame.row.trans hrow)) hs.claimable
    unfold HasDispatch at hway
    rw [dispatches_commit] at hway
    exact hs.lost (hsame.hasDispatch.mp hway)
  · intro hno run hmem hcl
    by_contra hlost
    have hrow : db₄.runs.find? run.runId = some run := Table.find?_of_mem hmem
    unfold HasDispatch at hlost
    rw [dispatches_commit] at hlost
    have hunserved : ¬ Served current run.runId db₄ := fun hs => hlost (hs run hrow hcl)
    have hsame₃ := (hafter run.runId).sameView hunserved
    have hunserved₃ : ¬ Served current run.runId db₃ := fun hs => hunserved (hsame₃.served hs)
    have hrow₃ := hsame₃.row.symm.trans hrow
    obtain ⟨hsame₂, hstranded | ⟨hs, e, he, hd⟩⟩ := repairRuns_unserved hrow₃ hunserved₃ hruns
    · have hsame₁ := (hbefore run.runId).sameView fun hs => hunserved₃ (hsame₂.served hs)
      exact hno run (Table.mem_of_find? ((hsame₁.trans hsame₂).row.symm.trans hrow₃))
        (hsame₁.symm.stranded hstranded)
    · -- the dead letter is among those the pass fails the run for
      obtain ⟨hmem', hof⟩ := List.mem_filter.mp he
      obtain ⟨hdispatch, hid⟩ := Bool.and_eq_true_iff.mp hof
      have hid : e.aggregateId = run.runId := of_decide_eq_true hid
      have hlist : e ∈ db₃.outbox.filter
          (fun e => e.isRunDispatch && decide (e.status = .deadLetter)) :=
        List.mem_filter.mpr ⟨hmem', by simp [hdispatch, hd]⟩
      rw [← hid] at hunserved hrow₃
      exact hunserved (repairDeadLetters_served hs hcl.1 hlist hrow₃ hdead)

/-- The lease of the claimed run expires; the pass queues the run again. -/
theorem runOnce_served_reaped :
    ∃ db', runOnce (reach {} claimedRun).db (seconds 100) (seconds 100) none = .ok db' ∧
      ∀ run ∈ db'.runs.rows, run.Claimable → HasDispatch db' (seconds 100) run.runId := by
  obtain ⟨db', h⟩ :
      ∃ db', runOnce (reach {} claimedRun).db (seconds 100) (seconds 100) none = .ok db' :=
    ⟨_, rfl⟩
  refine ⟨db', h, (runOnce_served h).mpr fun run hmem hs => ?_⟩
  have hstatus : ∀ run ∈ (reach {} claimedRun).db.runs.rows, run.status ≠ .waitingHuman := by
    decide
  exact hstatus run hmem hs.waiting

/-- A run is paused and approved, and its dispatches are delivered to a
worker that goes away before it claims the run. -/
def approvedRun : List Event :=
  claimedRun ++
    [after 1 (.pauseForHuman 0 3600),
     after 1 (.approve "run-1" "caller" "approve" 2),
     after 1 (.deliver 0 .delivered none),
     after 1 (.deliver 2 .delivered none)]

/-- The approved run stays in the queue, and nobody will be told. -/
theorem approved_run_stranded :
    ¬ ∀ (db db' : Db) (current now : Time) (resolver : Resolver),
      runOnce db current now resolver = .ok db' →
        ∀ run ∈ db'.runs.rows, run.Claimable → HasDispatch db' current run.runId := by
  intro hall
  have hpass := hall (reach {} approvedRun).db
  have hlost : (runOnce (reach {} approvedRun).db (seconds 60) (seconds 60) none).toOption.all
      (fun db' => decide (∀ run ∈ db'.runs.rows, run.Claimable →
        HasDispatch db' (seconds 60) run.runId)) = false := by
    rfl
  rcases h : runOnce (reach {} approvedRun).db (seconds 60) (seconds 60) none with err | db'
  · rw [h] at hlost
    cases hlost
  · rw [h] at hlost
    exact absurd (hpass db' _ _ none h) (of_decide_eq_false hlost)

end Pass

end ReconciliationService

end AgentRuntime
