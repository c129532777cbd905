import AgentRuntime.Perform

/-!
# Who writes the steps of a run

The rows of `agent_steps` are written by the executor alone: every operation
of the services, the reaper and the reconciler leaves them as they are, and
adds a plan at most (`perform_steps`); a purge takes the checkpoints of its run
and the summaries of its steps. What an executor's own write does to
them is `write_steps`.
-/

namespace AgentRuntime

open Keyed ReconciliationService

variable {limits : AdmissionLimits} {now : Time} {db db' : Db}

/-- The steps are as they were up to their summaries, and so are the plans that
were there; of the checkpoints those of some runs may be gone. -/
structure StepsKept (db db' : Db) : Prop where
  steps : db'.steps.map AgentStep.wiped = db.steps.map AgentStep.wiped
  plans : ∃ more, db'.plans = db.plans ++ more
  checkpoints : ∃ keep : String → Bool,
    db'.checkpoints = db.checkpoints.filter fun c => keep c.runId

namespace StepsKept

theorem of_eq (hsteps : db'.steps = db.steps) (hplans : db'.plans = db.plans)
    (hcheckpoints : db'.checkpoints = db.checkpoints) : StepsKept db db' :=
  ⟨by rw [hsteps], ⟨[], by rw [hplans, List.append_nil]⟩,
    fun _ => true, by rw [hcheckpoints, List.filter_true]⟩

theorem refl (db : Db) : StepsKept db db := of_eq rfl rfl rfl

theorem trans {db₁ db₂ db₃ : Db} (h : StepsKept db₁ db₂) (h' : StepsKept db₂ db₃) :
    StepsKept db₁ db₃ := by
  obtain ⟨more, hmore⟩ := h.plans
  obtain ⟨more', hmore'⟩ := h'.plans
  obtain ⟨keep, hkeep⟩ := h.checkpoints
  obtain ⟨keep', hkeep'⟩ := h'.checkpoints
  refine ⟨h'.steps.trans h.steps, ⟨more ++ more', by rw [hmore', hmore, List.append_assoc]⟩,
    fun q => keep q && keep' q, ?_⟩
  rw [hkeep', hkeep, List.filter_filter]
  exact List.filter_congr fun c _ => Bool.and_comm _ _

/-- A row that is there was there, up to its summaries. -/
theorem row_of_mem (h : StepsKept db db') {row : AgentStep} (hrow : row ∈ db'.steps) :
    ∃ before ∈ db.steps, before.wiped = row.wiped := by
  have hmem : row.wiped ∈ db'.steps.map AgentStep.wiped := List.mem_map_of_mem hrow
  rw [h.steps] at hmem
  exact List.mem_map.mp hmem

/-- A plan that was there is still the plan of its run. -/
theorem plan? (h : StepsKept db db') {q : String} {plan : AgentPlan}
    (hplan : db.plan? q = some plan) : db'.plan? q = some plan := by
  obtain ⟨more, hmore⟩ := h.plans
  unfold Db.plan? at hplan ⊢
  rw [hmore, List.find?_append, hplan]
  rfl

end StepsKept

/-- Wiping the steps of a run. -/
theorem wiped_steps (runId : String) (steps : List AgentStep) :
    (steps.map (fun s => if s.runId = runId then s.wiped else s)).map AgentStep.wiped
      = steps.map AgentStep.wiped := by
  rw [List.map_map]
  refine List.map_congr_left fun step _ => ?_
  show AgentStep.wiped (if step.runId = runId then step.wiped else step) = step.wiped
  by_cases hrun : step.runId = runId
  · rw [if_pos hrun]
    rfl
  · rw [if_neg hrun]

/-! ## The operations -/

theorem transitionRun_steps {l : AdmissionLimits} {run : AgentRun} {old : Option DispatchState}
    {new : DispatchState} (h : transitionRun l db run old new = .ok db') : StepsKept db db' := by
  obtain ⟨_, rfl, _⟩ := transitionRun_ok h
  exact .of_eq rfl rfl rfl

theorem appendCallbackEvent_steps {run : AgentRun} {event : String}
    (h : appendCallbackEvent db run event = .ok db') : StepsKept db db' := by
  obtain ⟨_, _, rfl⟩ := appendCallbackEvent_ok h
  exact .of_eq rfl rfl rfl

theorem appendCallback_steps {run : AgentRun} {status : RunStatus}
    (h : appendCallback db run status = .ok db') : StepsKept db db' := by
  obtain ⟨_, _, h⟩ := appendCallback_ok h
  exact appendCallbackEvent_steps h

/-- The row of a run is written, its slot shifted and a callback filed. -/
theorem settled_steps {l : AdmissionLimits} {db₁ db₂ : Db} {runs : RunTable} {run : AgentRun}
    {old : Option DispatchState} {new : DispatchState}
    (hadm : transitionRun l { db with runs := runs } run old new = .ok db₁)
    (hcb : StepsKept db₁ db₂) : StepsKept db db₂ := by
  have hrow : StepsKept db { db with runs := runs } := .of_eq rfl rfl rfl
  exact hrow.trans ((transitionRun_steps hadm).trans hcb)

theorem create_steps {id callerId tenantId : String} {command : CreateRunCommand}
    {authorizationVersion : Int}
    (h : AgentRunService.create limits db now id command callerId tenantId authorizationVersion
      = .ok db') : StepsKept db db' := by
  unfold AgentRunService.create at h
  split at h
  · cases h
  next definition _ =>
    obtain ⟨_, _, h⟩ := bind_ok.mp h
    obtain ⟨_, _, h⟩ := bind_ok.mp h
    obtain ⟨_, _, h⟩ := bind_ok.mp h
    obtain ⟨policy, _, h⟩ := bind_ok.mp h
    obtain ⟨_, _, h⟩ := bind_ok.mp h
    simp only at h
    split at h
    · cases h
    next runs hins =>
      obtain ⟨db₁, hadm, h⟩ := bind_ok.mp h
      obtain ⟨plan, hplan, h⟩ := bind_ok.mp h
      obtain ⟨_, rfl, _⟩ := transitionRun_ok hadm
      cases h
      -- with or without a start, the plan of the new run is the last one
      have hall : db.checkpoints = db.checkpoints.filter fun _ => true := (List.filter_true _).symm
      split
      · exact ⟨rfl, ⟨[plan], rfl⟩, fun _ => true, hall⟩
      · exact ⟨rfl, ⟨[plan], rfl⟩, fun _ => true, hall⟩

theorem start_steps {resolver : Resolver} {id callerId : String} {expected : Option Nat}
    (h : AgentRunService.start limits db now resolver id callerId expected = .ok db') :
    StepsKept db db' := by
  unfold AgentRunService.start at h
  obtain ⟨run, _, h⟩ := bind_ok.mp h
  obtain ⟨_, _, h⟩ := bind_ok.mp h
  split at h
  · cases h
    exact .refl db
  · obtain ⟨db₁, hadm, h⟩ := bind_ok.mp h
    obtain ⟨_, rfl, _⟩ := transitionRun_ok hadm
    cases h
    exact .of_eq rfl rfl rfl

theorem cancel_steps {id callerId : String}
    (h : AgentRunService.cancel limits db now id callerId = .ok db') : StepsKept db db' := by
  unfold AgentRunService.cancel at h
  obtain ⟨run, _, h⟩ := bind_ok.mp h
  split at h
  · obtain ⟨db₁, hadm, h⟩ := bind_ok.mp h
    obtain ⟨db₂, hcb, h⟩ := bind_ok.mp h
    cases h
    exact (settled_steps hadm (appendCallback_steps hcb)).trans (.of_eq rfl rfl rfl)
  · cases h
    exact .of_eq rfl rfl rfl

theorem purge_steps {id callerId : String}
    (h : AgentRunService.purge db now id callerId = .ok db') : StepsKept db db' := by
  unfold AgentRunService.purge at h
  obtain ⟨run, _, h⟩ := bind_ok.mp h
  split at h
  · cases h
    exact .of_eq rfl rfl rfl
  · cases h
    exact .refl db

theorem retry_steps {resolver : Resolver} {id callerId : String} {auditor : Bool}
    {expected : Option Nat}
    (h : AgentRunService.retry limits db now resolver id callerId auditor expected = .ok db') :
    StepsKept db db' := by
  unfold AgentRunService.retry at h
  obtain ⟨run, _, h⟩ := bind_ok.mp h
  obtain ⟨_, _, h⟩ := bind_ok.mp h
  obtain ⟨db₁, hadm, h⟩ := bind_ok.mp h
  obtain ⟨_, rfl, _⟩ := transitionRun_ok hadm
  cases h
  exact .of_eq rfl rfl rfl

theorem approve_steps {id callerId decision : String} {expected : Nat}
    (h : AgentRunService.approve limits db now id callerId decision expected = .ok db') :
    StepsKept db db' := by
  unfold AgentRunService.approve at h
  obtain ⟨run, _, h⟩ := bind_ok.mp h
  obtain ⟨_, _, h⟩ := bind_ok.mp h
  obtain ⟨_, _, h⟩ := bind_ok.mp h
  split at h
  · obtain ⟨db₁, hadm, h⟩ := bind_ok.mp h
    obtain ⟨_, rfl, _⟩ := transitionRun_ok hadm
    cases h
    exact .of_eq rfl rfl rfl
  split at h
  · obtain ⟨db₁, hadm, h⟩ := bind_ok.mp h
    obtain ⟨_, rfl, _⟩ := transitionRun_ok hadm
    cases h
    exact .of_eq rfl rfl rfl
  · obtain ⟨db₁, hcb, h⟩ := bind_ok.mp h
    have hrow : StepsKept db { db with runs := db.runs.put run.rejectFailed } := .of_eq rfl rfl rfl
    cases h
    exact hrow.trans ((appendCallback_steps hcb).trans (.of_eq rfl rfl rfl))

/-! ## The worker lease and the reaper -/

theorem claim_steps {leaseSeconds : Nat} {id owner : String} {ctx? : Option LeaseContext}
    (h : LeaseService.claim db now leaseSeconds id owner = .ok (db', ctx?)) :
    StepsKept db db' := by
  unfold LeaseService.claim at h
  split at h
  · cases h
    exact .refl db
  · split at h
    · obtain ⟨db₁, hadm, h⟩ := bind_ok.mp h
      obtain ⟨_, rfl, _⟩ := transitionRun_ok hadm
      cases h
      exact .of_eq rfl rfl rfl
    · cases h
      exact .refl db

theorem heartbeat_steps (db : Db) (leaseSeconds : Nat) (id : String) (ctx : LeaseContext) :
    StepsKept db (LeaseService.heartbeat db now leaseSeconds id ctx).1 := by
  unfold LeaseService.heartbeat
  split
  · exact .refl db
  · split
    · exact .of_eq rfl rfl rfl
    · exact .refl db

theorem releaseForDrain_steps (db : Db) (id : String) (ctx : LeaseContext) :
    StepsKept db (LeaseService.releaseForDrain db now id ctx).1 := by
  unfold LeaseService.releaseForDrain
  split
  · exact .refl db
  · split
    · exact .of_eq rfl rfl rfl
    · exact .refl db

theorem finish_steps {result : AgentRunResult} {ctx : LeaseContext} {b : Bool}
    (h : LeaseService.finish db now result ctx = .ok (db', b)) : StepsKept db db' := by
  unfold LeaseService.finish at h
  split at h
  · cases h
    exact .refl db
  · split at h
    · obtain ⟨db₁, hadm, h⟩ := bind_ok.mp h
      obtain ⟨db₂, hcb, h⟩ := bind_ok.mp h
      cases h
      exact (settled_steps hadm (appendCallback_steps hcb)).trans (.of_eq rfl rfl rfl)
    · cases h
      exact .refl db

theorem finishAfterInvalidBoundary_steps {id : String} {ctx : LeaseContext} {b : Bool}
    (h : LeaseService.finishAfterInvalidBoundary db now id ctx = .ok (db', b)) :
    StepsKept db db' := by
  unfold LeaseService.finishAfterInvalidBoundary at h
  split at h
  · cases h
    exact .refl db
  · split at h
    · obtain ⟨db₁, hadm, h⟩ := bind_ok.mp h
      obtain ⟨db₂, hcb, h⟩ := bind_ok.mp h
      cases h
      exact (settled_steps hadm (appendCallback_steps hcb)).trans (.of_eq rfl rfl rfl)
    · cases h
      exact .refl db

theorem pauseForHuman_steps {id : String} {ctx : LeaseContext} {timeout : Int} {b : Bool}
    (h : LeaseService.pauseForHuman db now id ctx timeout = .ok (db', b)) :
    StepsKept db db' := by
  unfold LeaseService.pauseForHuman at h
  split at h
  · cases h
    exact .refl db
  · split at h
    · obtain ⟨db₁, hadm, h⟩ := bind_ok.mp h
      obtain ⟨db₂, hcb, h⟩ := bind_ok.mp h
      cases h
      exact (settled_steps hadm (appendCallbackEvent_steps hcb)).trans (.of_eq rfl rfl rfl)
    · cases h
      exact .refl db

theorem reapOne_steps {selected : AgentRun} {b : Bool}
    (h : LeaseService.reapOne db now selected = .ok (db', b)) : StepsKept db db' := by
  unfold LeaseService.reapOne at h
  split at h
  · cases h
    exact .refl db
  · split at h
    · split at h
      · obtain ⟨db₁, hadm, h⟩ := bind_ok.mp h
        obtain ⟨_, rfl, _⟩ := transitionRun_ok hadm
        cases h
        exact .of_eq rfl rfl rfl
      · obtain ⟨db₁, hadm, h⟩ := bind_ok.mp h
        obtain ⟨db₂, hcb, h⟩ := bind_ok.mp h
        cases h
        exact settled_steps hadm (appendCallback_steps hcb)
    · cases h
      exact .refl db

theorem reapAll_steps : ∀ {l : List AgentRun} {db db' : Db} {recovered : List String},
    LeaseService.reapAll now db l = .ok (db', recovered) → StepsKept db db'
  | [], db, _, _, h => by
    cases h
    exact .refl db
  | selected :: rest, db, db', _, h => by
    obtain ⟨⟨db₁, b⟩, hone, h⟩ := bind_ok.mp h
    obtain ⟨⟨db₂, others⟩, hrest, h⟩ := bind_ok.mp h
    cases h
    exact (reapOne_steps hone).trans (reapAll_steps hrest)

/-! ## The reconciler -/

theorem terminate_steps (db : Db) (loaded : AgentRun) (status : RunStatus) (code : String) :
    Repairs StepsKept db (terminate db now loaded status code) := by
  refine (terminate_repairs db loaded status code).imp fun db' h => ?_
  obtain ⟨run, db₁, _, _, hadm, hcb⟩ := h
  exact settled_steps hadm (appendCallback_steps hcb)

theorem repairRun_steps {resolver : Resolver} {run : AgentRun} {b : Bool}
    (h : repairRun db now now resolver run = .ok (db', b)) : StepsKept db db' := by
  have u : Updates StepsKept now now resolver db run :=
    { terminate := fun status code _ => terminate_steps db run status code
      stop := fun write _ => (requestStop_repairs db run write).imp fun db' h => by
        obtain ⟨r, _, _, rfl⟩ := h
        exact .of_eq rfl rfl rfl
      purge := (repairPurge_repairs db run).imp fun db' h => by
        obtain ⟨_, r, _, _, rfl⟩ := h
        exact ⟨wiped_steps run.runId db.steps, ⟨[], (List.append_nil _).symm⟩,
          fun q => decide (q ≠ run.runId), rfl⟩
      missing := (repairMissingRunDispatch_repairs db run).imp fun db' h => by
        rcases h with ⟨_, rfl⟩ | ⟨_, rfl⟩
        · exact .of_eq rfl rfl rfl
        · exact .of_eq rfl rfl rfl
      requeue := fun _ => (requeueTimeoutFallback_repairs db run).imp fun db' h => by
        obtain ⟨r, db₁, _, _, _, hadm, rfl⟩ := h
        obtain ⟨_, rfl, _⟩ := transitionRun_ok hadm
        exact .of_eq rfl rfl rfl }
  rcases repairRun_repairs u db' b h with ⟨_, rfl⟩ | ⟨_, hkept⟩
  · exact .refl db'
  · exact hkept

theorem repairDeadLetter_steps {event : RuntimeOutboxEvent}
    (h : repairDeadLetter db now event = .ok db') : StepsKept db db' := by
  unfold repairDeadLetter at h
  split at h
  · cases h
    exact .refl db
  next run hfind =>
    split at h
    · obtain ⟨⟨db₁, b⟩, hterm, h⟩ := bind_ok.mp h
      cases h
      rcases terminate_steps db run _ _ _ _ hterm with ⟨_, hdb⟩ | ⟨_, hkept⟩
      · rw [hdb]
        exact .refl db
      · exact hkept
    · cases h
      exact .refl db

/-! ## Every operation -/

/-- The write of an executor. -/
def Op.isWrite : Op → Bool
  | .write _ _ => true
  | _ => false

/-- **Only executors write steps.** -/
theorem perform_steps {issued issued' : List Issued} {op : Op} (hop : op.isWrite = false)
    (h : perform limits db now issued op = .ok (db', issued')) : StepsKept db db' := by
  cases op with
  | write i w => cases hop
  | register definitions =>
    cases h
    exact .of_eq rfl rfl rfl
  | create runId command callerId tenantId av =>
    obtain ⟨db₁, hok, h⟩ := bind_ok.mp h
    cases h
    exact create_steps hok
  | start resolver runId callerId expected =>
    obtain ⟨db₁, hok, h⟩ := bind_ok.mp h
    cases h
    exact start_steps hok
  | cancel runId callerId =>
    obtain ⟨db₁, hok, h⟩ := bind_ok.mp h
    cases h
    exact cancel_steps hok
  | purge runId callerId =>
    obtain ⟨db₁, hok, h⟩ := bind_ok.mp h
    cases h
    exact purge_steps hok
  | retry resolver runId callerId allowAuditor expected =>
    obtain ⟨db₁, hok, h⟩ := bind_ok.mp h
    cases h
    exact retry_steps hok
  | approve runId callerId decision expectedVersion =>
    obtain ⟨db₁, hok, h⟩ := bind_ok.mp h
    cases h
    exact approve_steps hok
  | claim runId owner leaseSeconds =>
    obtain ⟨⟨db₁, ctx?⟩, hok, h⟩ := bind_ok.mp h
    have hkept := claim_steps hok
    cases ctx? <;> cases h <;> exact hkept
  | heartbeat i leaseSeconds =>
    rcases withContext_ok h with ⟨rfl, _⟩ | ⟨held, _, h⟩
    · exact .refl _
    · cases h
      exact heartbeat_steps db leaseSeconds held.runId held.ctx
  | finish i status errorCode =>
    rcases withContext_ok h with ⟨rfl, _⟩ | ⟨held, _, h⟩
    · exact .refl _
    · obtain ⟨⟨db₁, b⟩, hok, h⟩ := bind_ok.mp h
      cases h
      exact finish_steps hok
  | releaseForDrain i =>
    rcases withContext_ok h with ⟨rfl, _⟩ | ⟨held, _, h⟩
    · exact .refl _
    · cases h
      exact releaseForDrain_steps db held.runId held.ctx
  | finishAfterInvalidBoundary i =>
    rcases withContext_ok h with ⟨rfl, _⟩ | ⟨held, _, h⟩
    · exact .refl _
    · obtain ⟨⟨db₁, b⟩, hok, h⟩ := bind_ok.mp h
      cases h
      exact finishAfterInvalidBoundary_steps hok
  | pauseForHuman i timeoutSeconds =>
    rcases withContext_ok h with ⟨rfl, _⟩ | ⟨held, _, h⟩
    · exact .refl _
    · obtain ⟨⟨db₁, b⟩, hok, h⟩ := bind_ok.mp h
      cases h
      exact pauseForHuman_steps hok
  | reapExpired =>
    obtain ⟨⟨db₁, recovered⟩, hok, h⟩ := bind_ok.mp h
    cases h
    exact (reapAll_steps hok).trans (.of_eq rfl rfl rfl)
  | repairRun runId resolver =>
    simp only [perform] at h
    split at h
    · cases h
      exact .refl _
    · obtain ⟨⟨db₁, b⟩, hok, h⟩ := bind_ok.mp h
      cases h
      exact (repairRun_steps hok).trans (.of_eq rfl rfl rfl)
  | repairDeadLetter k =>
    simp only [perform] at h
    split at h
    · cases h
      exact .refl _
    · split at h
      · obtain ⟨db₁, hok, h⟩ := bind_ok.mp h
        cases h
        exact (repairDeadLetter_steps hok).trans (.of_eq rfl rfl rfl)
      · cases h
        exact .refl _
  | deliver k status leaseExpiresAt =>
    cases h
    exact .of_eq rfl rfl rfl

/-- An executor's write adds the row it is for, or does not touch the steps
unless it is one that changes them. -/
theorem write_steps {issued issued' : List Issued} {i : Nat} {w : ExecWrite}
    (h : perform limits db now issued (.write i w) = .ok (db', issued')) :
    db'.plans = db.plans ∧ (db'.steps = db.steps ∨
      (∃ step, w = .addStep step ∧ db'.steps = db.steps ++ [step]) ∨
      (∃ stepId status errorCode, w = .setStep stepId status errorCode) ∨
      ∃ stepId, w = .autoRetry stepId) := by
  rcases withContext_ok h with ⟨rfl, _⟩ | ⟨held, _, h⟩
  · exact ⟨rfl, Or.inl rfl⟩
  split at h
  · cases h
    exact ⟨rfl, Or.inl rfl⟩
  next run _ =>
  split at h
  · obtain ⟨db₁, hok, h⟩ := bind_ok.mp h
    cases h
    show db₁.plans = db.plans ∧ (db₁.steps = db.steps ∨ _)
    -- only `addStep`, `setStep` and `autoRetry` are about steps
    cases w with
    | addStep step =>
      simp only [execWrite] at hok
      split at hok
      · cases hok
        exact ⟨rfl, Or.inr (Or.inl ⟨step, rfl, rfl⟩)⟩
      · cases hok
        exact ⟨rfl, Or.inl rfl⟩
    | setStep stepId status errorCode =>
      cases hok
      exact ⟨rfl, Or.inr (Or.inr (Or.inl ⟨stepId, status, errorCode, rfl⟩))⟩
    | autoRetry stepId =>
      cases hok
      exact ⟨rfl, Or.inr (Or.inr (Or.inr ⟨stepId, rfl⟩))⟩
    | markRunning =>
      simp only [execWrite] at hok
      split at hok
      · cases hok
        exact ⟨rfl, Or.inl rfl⟩
      · obtain ⟨_, _, rfl⟩ := appendCallbackEvent_ok hok
        exact ⟨rfl, Or.inl rfl⟩
    | stepChanged =>
      obtain ⟨_, _, rfl⟩ := appendCallbackEvent_ok hok
      exact ⟨rfl, Or.inl rfl⟩
    | saveCheckpoint key state =>
      cases hok
      unfold saveCheckpoint
      split
      · exact ⟨rfl, Or.inl rfl⟩
      · exact ⟨rfl, Or.inl rfl⟩
    | _ =>
      cases hok
      exact ⟨rfl, Or.inl rfl⟩
  · cases h
    exact ⟨rfl, Or.inl rfl⟩

end AgentRuntime
