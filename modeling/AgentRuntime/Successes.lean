import AgentRuntime.StepRows

/-!
# Who makes a run a success

Many operations end a run, but only `finish` writes a status that says it is a
success: what the reaper, the reconciler and the API write is a failure, a
cancellation, or the status as it was (`perform_noneSucceeds`). What `finish`
writes is the status it is told, for the run of its context (`finish_succeeds`).
-/

namespace AgentRuntime

open Keyed ReconciliationService

variable {limits : AdmissionLimits} {now : Time} {db db₁ db₂ db' : Db}

/-- Published, if not with everything. -/
def RunStatus.Successful (status : RunStatus) : Prop :=
  status = .succeeded ∨ status = .partialSucceeded

instance (status : RunStatus) : Decidable status.Successful := by
  unfold RunStatus.Successful; infer_instance

/-- A row that is a success has been one, of the same kind. -/
def KeepsSuccess (db : Db) (run : AgentRun) : Prop :=
  run.status.Successful → ∃ before, db.runs.find? run.runId = some before ∧
    before.status = run.status

/-- The runs that are a success have been one before. -/
def NoneSucceeds (db db' : Db) : Prop :=
  ∀ q run, db'.runs.find? q = some run → run.status.Successful →
    ∃ before, db.runs.find? q = some before ∧ before.status = run.status

theorem KeepsSuccess.of_find? {before run : AgentRun} {q : String}
    (hfind : db.runs.find? q = some before) (hid : run.runId = before.runId)
    (hstatus : run.status = before.status) : KeepsSuccess db run :=
  fun _ => ⟨before, by rw [hid, Table.key_of_find? hfind]; exact hfind, hstatus.symm⟩

theorem KeepsSuccess.of_not {run : AgentRun} (h : ¬ run.status.Successful) : KeepsSuccess db run :=
  fun hs => absurd hs h

namespace NoneSucceeds

theorem of_runs (h : db'.runs = db.runs) : NoneSucceeds db db' := by
  intro q run hfind _
  rw [h] at hfind
  exact ⟨run, hfind, rfl⟩

theorem refl (db : Db) : NoneSucceeds db db := of_runs rfl

theorem trans (h : NoneSucceeds db db₁) (h' : NoneSucceeds db₁ db₂) : NoneSucceeds db db₂ := by
  intro q run hfind hs
  obtain ⟨before, hbefore, hstatus⟩ := h' q run hfind hs
  obtain ⟨first, hfirst, hstatus'⟩ := h q before hbefore (hstatus ▸ hs)
  exact ⟨first, hfirst, hstatus'.trans hstatus⟩

/-- A row is written over. -/
theorem put (h : NoneSucceeds db db₁) {run : AgentRun} (hkeeps : KeepsSuccess db run)
    (hruns : db₂.runs = db₁.runs.put run) : NoneSucceeds db db₂ := by
  intro q row hfind hs
  rw [hruns, Table.find?_put] at hfind
  by_cases hq : q = run.runId
  · rw [if_pos hq] at hfind
    obtain ⟨_, _, rfl⟩ := Option.map_eq_some_iff.mp hfind
    rw [hq]
    exact hkeeps hs
  · rw [if_neg hq] at hfind
    exact h q row hfind hs

/-- A row is written and its slot shifted. -/
theorem shift {l : AdmissionLimits} {run : AgentRun} {old : Option DispatchState}
    {new : DispatchState} (hkeeps : KeepsSuccess db run)
    (h : transitionRun l { db with runs := db.runs.put run } run old new = .ok db₁) :
    NoneSucceeds db db₁ := by
  obtain ⟨_, rfl, _⟩ := transitionRun_ok h
  exact (refl db).put hkeeps rfl

/-- A callback counts the events of its run. -/
theorem event (h : NoneSucceeds db db₁) {run : AgentRun} (hkeeps : KeepsSuccess db run)
    {event : String} (hcb : appendCallbackEvent db₁ run event = .ok db₂) : NoneSucceeds db db₂ := by
  obtain ⟨_, _, rfl⟩ := appendCallbackEvent_ok hcb
  have hnext : KeepsSuccess db run.nextEvent := hkeeps
  exact h.put hnext rfl

theorem callback (h : NoneSucceeds db db₁) {run : AgentRun} (hkeeps : KeepsSuccess db run)
    {status : RunStatus} (hcb : appendCallback db₁ run status = .ok db₂) : NoneSucceeds db db₂ := by
  obtain ⟨_, _, hcb⟩ := appendCallback_ok hcb
  exact h.event hkeeps hcb

end NoneSucceeds

/-! ## The control plane -/

theorem create_noneSucceeds {id callerId tenantId : String} {command : CreateRunCommand}
    {authorizationVersion : Int}
    (h : AgentRunService.create limits db now id command callerId tenantId authorizationVersion
      = .ok db') : NoneSucceeds db db' := by
  obtain ⟨definition, policy, runs, db₁, plan, hins, hadm, _, hsame⟩ := create_ok h
  obtain ⟨_, rfl, _⟩ := transitionRun_ok hadm
  intro q run hfind hs
  rw [hsame.runs] at hfind
  change runs.find? q = some run at hfind
  rw [Table.find?_insert? hins] at hfind
  split at hfind
  · -- the new run is pending
    cases hfind
    rcases hs with hs | hs
    · cases hs
    · cases hs
  · exact ⟨run, hfind, rfl⟩

theorem start_noneSucceeds {resolver : Resolver} {id callerId : String} {expected : Option Nat}
    (h : AgentRunService.start limits db now resolver id callerId expected = .ok db') :
    NoneSucceeds db db' := by
  unfold AgentRunService.start at h
  obtain ⟨run, hown, h⟩ := bind_ok.mp h
  obtain ⟨_, _, h⟩ := bind_ok.mp h
  split at h
  · cases h
    exact .refl db
  · obtain ⟨db₁, hadm, h⟩ := bind_ok.mp h
    cases h
    have hkeeps : KeepsSuccess db (run.start now) := .of_find? (ownedRun_ok hown) rfl rfl
    have hshift := NoneSucceeds.shift hkeeps hadm
    exact hshift

theorem cancel_noneSucceeds {id callerId : String}
    (h : AgentRunService.cancel limits db now id callerId = .ok db') : NoneSucceeds db db' := by
  unfold AgentRunService.cancel at h
  obtain ⟨run, hown, h⟩ := bind_ok.mp h
  split at h
  · obtain ⟨db₁, hadm, h⟩ := bind_ok.mp h
    obtain ⟨db₂, hcb, h⟩ := bind_ok.mp h
    cases h
    have hkeeps : KeepsSuccess db (run.cancelNow now) := .of_not (by simp [AgentRun.cancelNow,
      RunStatus.Successful])
    have hended := (NoneSucceeds.shift hkeeps hadm).callback hkeeps hcb
    exact hended
  · cases h
    have hkeeps : KeepsSuccess db (run.requestCancel now) := .of_find? (ownedRun_ok hown) rfl rfl
    exact (NoneSucceeds.refl db).put hkeeps rfl

theorem purge_noneSucceeds {id callerId : String}
    (h : AgentRunService.purge db now id callerId = .ok db') : NoneSucceeds db db' := by
  unfold AgentRunService.purge at h
  obtain ⟨run, hown, h⟩ := bind_ok.mp h
  split at h
  · cases h
    have hkeeps : KeepsSuccess db (run.requestPurge now) := .of_find? (ownedRun_ok hown) rfl rfl
    exact (NoneSucceeds.refl db).put hkeeps rfl
  · cases h
    exact .refl db

theorem retry_noneSucceeds {resolver : Resolver} {id callerId : String} {auditor : Bool}
    {expected : Option Nat}
    (h : AgentRunService.retry limits db now resolver id callerId auditor expected = .ok db') :
    NoneSucceeds db db' := by
  unfold AgentRunService.retry at h
  obtain ⟨run, _, h⟩ := bind_ok.mp h
  obtain ⟨_, _, h⟩ := bind_ok.mp h
  obtain ⟨db₁, hadm, h⟩ := bind_ok.mp h
  cases h
  have hkeeps : KeepsSuccess db (run.retry now) :=
    .of_not (by simp [AgentRun.retry, RunStatus.Successful])
  have hshift := NoneSucceeds.shift hkeeps hadm
  exact hshift

theorem approve_noneSucceeds {id callerId decision : String} {expected : Nat}
    (h : AgentRunService.approve limits db now id callerId decision expected = .ok db') :
    NoneSucceeds db db' := by
  unfold AgentRunService.approve at h
  obtain ⟨run, hown, h⟩ := bind_ok.mp h
  obtain ⟨_, _, h⟩ := bind_ok.mp h
  obtain ⟨_, _, h⟩ := bind_ok.mp h
  have hqueued : ∀ code, KeepsSuccess db (run.decideQueued now code) := fun _ =>
    .of_find? (ownedRun_ok hown) rfl rfl
  split at h
  · obtain ⟨db₁, hadm, h⟩ := bind_ok.mp h
    cases h
    have hshift := NoneSucceeds.shift (hqueued _) hadm
    exact hshift
  split at h
  · obtain ⟨db₁, hadm, h⟩ := bind_ok.mp h
    cases h
    have hshift := NoneSucceeds.shift (hqueued _) hadm
    exact hshift
  · obtain ⟨db₁, hcb, h⟩ := bind_ok.mp h
    cases h
    have hkeeps : KeepsSuccess db run.rejectFailed :=
      .of_not (by simp [AgentRun.rejectFailed, RunStatus.Successful])
    have hended := ((NoneSucceeds.refl db).put hkeeps rfl).callback hkeeps hcb
    exact hended

/-! ## The worker lease and the reaper -/

theorem claim_noneSucceeds {leaseSeconds : Nat} {id owner : String} {ctx? : Option LeaseContext}
    (h : LeaseService.claim db now leaseSeconds id owner = .ok (db', ctx?)) :
    NoneSucceeds db db' := by
  unfold LeaseService.claim at h
  split at h
  · cases h
    exact .refl db
  next run hfind =>
    split at h
    · obtain ⟨db₁, hadm, h⟩ := bind_ok.mp h
      cases h
      have hkeeps : KeepsSuccess db (run.claimBy now leaseSeconds owner) :=
        .of_find? hfind rfl rfl
      have hshift := NoneSucceeds.shift hkeeps hadm
      exact hshift
    · cases h
      exact .refl db

theorem heartbeat_noneSucceeds (db : Db) (leaseSeconds : Nat) (id : String) (ctx : LeaseContext) :
    NoneSucceeds db (LeaseService.heartbeat db now leaseSeconds id ctx).1 := by
  unfold LeaseService.heartbeat
  split
  · exact .refl db
  next run hfind =>
    split
    · have hkeeps : KeepsSuccess db (run.leaseUntil (now + seconds leaseSeconds)) :=
        .of_find? hfind rfl rfl
      exact (NoneSucceeds.refl db).put hkeeps rfl
    · exact .refl db

theorem releaseForDrain_noneSucceeds (db : Db) (id : String) (ctx : LeaseContext) :
    NoneSucceeds db (LeaseService.releaseForDrain db now id ctx).1 := by
  unfold LeaseService.releaseForDrain
  split
  · exact .refl db
  next run hfind =>
    split
    · have hkeeps : KeepsSuccess db (run.leaseUntil now) := .of_find? hfind rfl rfl
      exact (NoneSucceeds.refl db).put hkeeps rfl
    · exact .refl db

theorem finishAfterInvalidBoundary_noneSucceeds {id : String} {ctx : LeaseContext} {b : Bool}
    (h : LeaseService.finishAfterInvalidBoundary db now id ctx = .ok (db', b)) :
    NoneSucceeds db db' := by
  unfold LeaseService.finishAfterInvalidBoundary at h
  split at h
  · cases h
    exact .refl db
  next run hfind =>
    split at h
    · obtain ⟨db₁, hadm, h⟩ := bind_ok.mp h
      obtain ⟨db₂, hcb, h⟩ := bind_ok.mp h
      cases h
      have hkeeps : KeepsSuccess db (run.endWith now .cancelled run.errorCode) :=
        .of_not (by simp [AgentRun.endWith, RunStatus.Successful])
      have hended := (NoneSucceeds.shift hkeeps hadm).callback hkeeps hcb
      exact hended
    · cases h
      exact .refl db

theorem pauseForHuman_noneSucceeds {id : String} {ctx : LeaseContext} {timeout : Int} {b : Bool}
    (h : LeaseService.pauseForHuman db now id ctx timeout = .ok (db', b)) :
    NoneSucceeds db db' := by
  unfold LeaseService.pauseForHuman at h
  split at h
  · cases h
    exact .refl db
  next run hfind =>
    split at h
    · obtain ⟨db₁, hadm, h⟩ := bind_ok.mp h
      obtain ⟨db₂, hcb, h⟩ := bind_ok.mp h
      cases h
      have hkeeps : KeepsSuccess db (run.pauseUntil (now + seconds timeout.toNat)) :=
        .of_not (by simp [AgentRun.pauseUntil, RunStatus.Successful])
      have hended := (NoneSucceeds.shift hkeeps hadm).event hkeeps hcb
      exact hended
    · cases h
      exact .refl db

/-- A run that was reaped has the status it had, or is pending again. -/
theorem statusAfterReap_cases (status : RunStatus) :
    AgentRun.statusAfterReap status = status ∨ AgentRun.statusAfterReap status = .pending := by
  cases status with
  | planning | running | evaluating => exact .inr rfl
  | _ => exact .inl rfl

theorem reapOne_noneSucceeds {selected : AgentRun} {b : Bool}
    (h : LeaseService.reapOne db now selected = .ok (db', b)) : NoneSucceeds db db' := by
  unfold LeaseService.reapOne at h
  split at h
  · cases h
    exact .refl db
  next run hfind =>
    split at h
    · split at h
      · obtain ⟨db₁, hadm, h⟩ := bind_ok.mp h
        cases h
        have hkeeps : KeepsSuccess db (run.reap now) := by
          rcases statusAfterReap_cases run.status with hsame | hpending
          · exact .of_find? hfind rfl hsame
          · refine .of_not ?_
            rw [show (run.reap now).status = .pending from hpending]
            simp [RunStatus.Successful]
        have hshift := NoneSucceeds.shift hkeeps hadm
        exact hshift
      · obtain ⟨db₁, hadm, h⟩ := bind_ok.mp h
        obtain ⟨db₂, hcb, h⟩ := bind_ok.mp h
        cases h
        have hkeeps : KeepsSuccess db (run.endWith now .cancelled (some "PACKAGE_REVOKED")) :=
          .of_not (by simp [AgentRun.endWith, RunStatus.Successful])
        have hended := (NoneSucceeds.shift hkeeps hadm).callback hkeeps hcb
        exact hended
    · cases h
      exact .refl db

theorem reapAll_noneSucceeds : ∀ {l : List AgentRun} {db db' : Db} {recovered : List String},
    LeaseService.reapAll now db l = .ok (db', recovered) → NoneSucceeds db db'
  | [], db, _, _, h => by
    cases h
    exact .refl db
  | selected :: rest, db, db', _, h => by
    obtain ⟨⟨db₁, b⟩, hone, h⟩ := bind_ok.mp h
    obtain ⟨⟨db₂, others⟩, hrest, h⟩ := bind_ok.mp h
    cases h
    exact (reapOne_noneSucceeds hone).trans (reapAll_noneSucceeds hrest)

/-! ## The reconciler -/

theorem terminate_noneSucceeds (db : Db) (loaded : AgentRun) {status : RunStatus} (code : String)
    (hstatus : ¬ status.Successful) :
    Repairs NoneSucceeds db (terminate db now loaded status code) := by
  refine (terminate_repairs db loaded status code).imp fun db' h => ?_
  obtain ⟨run, db₁, _, _, hadm, hcb⟩ := h
  have hkeeps : KeepsSuccess db (run.terminate now status code) := .of_not hstatus
  exact (NoneSucceeds.shift hkeeps hadm).callback hkeeps hcb

theorem requestStop_noneSucceeds (db : Db) (loaded : AgentRun) {write : AgentRun → AgentRun}
    (hwrite : StopWrite now write) :
    Repairs NoneSucceeds db (pure (requestStop db loaded write)) := by
  refine (requestStop_repairs db loaded write).imp fun db' h => ?_
  obtain ⟨run, hfind, _, rfl⟩ := h
  have hkeeps : KeepsSuccess db (write run) := by
    cases hwrite with
    | plain => exact .of_find? hfind rfl rfl
    | code errorCode => exact .of_find? hfind rfl rfl
  exact (NoneSucceeds.refl db).put hkeeps rfl

theorem failed_not_successful : ¬ RunStatus.Successful .failed := by decide

theorem cancelled_not_successful : ¬ RunStatus.Successful .cancelled := by decide

theorem timeout_not_successful (db : Db) (run : AgentRun) :
    ¬ (timeoutTerminalStatus db run).Successful := by
  unfold timeoutTerminalStatus
  split
  · exact cancelled_not_successful
  · exact failed_not_successful

theorem applyExecutionTimeout_noneSucceeds (db : Db) (run : AgentRun) (code : String) :
    Repairs NoneSucceeds db (applyExecutionTimeout db now run code) := by
  unfold applyExecutionTimeout
  refine repairs_ite (fun _ => repairs_nothing db) fun _ => ?_
  refine repairs_ite (fun _ => requestStop_noneSucceeds db run (.code code)) fun _ => ?_
  refine repairs_ite (fun _ => repairs_nothing db) fun _ => ?_
  exact terminate_noneSucceeds db run code failed_not_successful

/-- Cancel a run that nobody is at, or ask its worker to stop. -/
theorem cancels_noneSucceeds (db : Db) (run : AgentRun) (code : String) :
    Repairs NoneSucceeds db
      (if run.Unattended then terminate db now run .cancelled code
      else if run.dispatchState = .claimed ∧ run.cancelRequestedAt = none then
        pure (requestStop db run (·.requestCancel now))
      else pure (db, false)) := by
  refine repairs_ite (fun _ => ?_) fun _ => ?_
  · exact terminate_noneSucceeds db run code cancelled_not_successful
  · exact repairs_ite (fun _ => requestStop_noneSucceeds db run .plain) fun _ => repairs_nothing db

theorem repairWaitingHumanTimeout_noneSucceeds (db : Db) (run : AgentRun) :
    Repairs NoneSucceeds db (repairWaitingHumanTimeout db now run) := by
  have hterminate : ∀ code, Repairs NoneSucceeds db
      (terminate db now run (timeoutTerminalStatus db run) code) := fun code =>
    terminate_noneSucceeds db run code (timeout_not_successful db run)
  unfold repairWaitingHumanTimeout
  refine repairs_ite (fun _ => ?_) fun _ => repairs_nothing db
  refine repairs_ite (fun _ => ?_) fun _ => hterminate _
  refine repairs_ite (fun _ => ?_) fun _ => hterminate _
  refine (requeueTimeoutFallback_repairs db run).imp fun db' h => ?_
  obtain ⟨r, db₁, hfind, _, _, hadm, rfl⟩ := h
  have hkeeps : KeepsSuccess db (r.requeueFallback now) := .of_find? hfind rfl rfl
  have hshift := NoneSucceeds.shift hkeeps hadm
  exact hshift

theorem repairRun_noneSucceeds {resolver : Resolver} {run : AgentRun} {b : Bool}
    (h : repairRun db now now resolver run = .ok (db', b)) : NoneSucceeds db db' := by
  have hrepairs : Repairs NoneSucceeds db (repairRun db now now resolver run) := by
    unfold repairRun
    -- the repairs, in their order
    refine repairs_orElse ((repairPurge_repairs db run).imp fun db' h => ?_) fun _ => ?_
    · obtain ⟨_, r, hfind, _, rfl⟩ := h
      have hkeeps : KeepsSuccess db (r.purge now) := .of_find? hfind rfl rfl
      exact (NoneSucceeds.refl db).put hkeeps rfl
    refine repairs_orElse (repairs_ite (fun _ => repairs_nothing db) fun _ =>
      applyExecutionTimeout_noneSucceeds db run _) fun _ => ?_
    refine repairs_orElse (repairs_ite (fun _ => applyExecutionTimeout_noneSucceeds db run _)
      fun _ => repairs_nothing db) fun _ => ?_
    refine repairs_orElse (repairs_ite (fun _ => repairs_nothing db) fun _ =>
      cancels_noneSucceeds db run _) fun _ => ?_
    refine repairs_orElse (repairs_ite (fun _ => repairs_nothing db) fun _ =>
      cancels_noneSucceeds db run _) fun _ => ?_
    refine repairs_orElse (repairs_ite (fun _ =>
      terminate_noneSucceeds db run _ cancelled_not_successful) fun _ =>
      repairs_nothing db) fun _ => ?_
    refine repairs_orElse (repairs_ite (fun _ =>
      terminate_noneSucceeds db run _ failed_not_successful) fun _ =>
      repairs_nothing db) fun _ => ?_
    refine repairs_orElse ((repairMissingRunDispatch_repairs db run).imp fun db' h => ?_)
      fun _ => repairWaitingHumanTimeout_noneSucceeds db run
    rcases h with ⟨_, rfl⟩ | ⟨_, rfl⟩
    · exact .of_runs rfl
    · exact .of_runs rfl
  rcases hrepairs db' b h with ⟨_, rfl⟩ | ⟨_, hnone⟩
  · exact .refl db'
  · exact hnone

theorem repairDeadLetter_noneSucceeds {event : RuntimeOutboxEvent}
    (h : repairDeadLetter db now event = .ok db') : NoneSucceeds db db' := by
  unfold repairDeadLetter at h
  split at h
  · cases h
    exact .refl db
  next run _ =>
    split at h
    · obtain ⟨⟨db₁, b⟩, hterm, h⟩ := bind_ok.mp h
      cases h
      rcases terminate_noneSucceeds db run _ failed_not_successful _ _ hterm with
        ⟨_, hdb⟩ | ⟨_, hnone⟩
      · rw [hdb]
        exact .refl db
      · exact hnone
    · cases h
      exact .refl db

/-! ## Every operation -/

/-- The end of a run that its worker reports. -/
def Op.isFinish : Op → Bool
  | .finish _ _ _ => true
  | _ => false

theorem execWrite_noneSucceeds {q : String} {run : AgentRun} {ctx : LeaseContext} {w : ExecWrite}
    (hfind : db.runs.find? q = some run) (h : execWrite db now run ctx w = .ok db') :
    NoneSucceeds db db' := by
  have hput : ∀ run' : AgentRun, run'.runId = run.runId → run'.status = run.status →
      NoneSucceeds db { db with runs := db.runs.put run' } := fun run' hid hstatus =>
    (NoneSucceeds.refl db).put (.of_find? hfind hid hstatus) rfl
  cases w with
  | clearErrorCode =>
    cases h
    exact hput _ rfl rfl
  | requestCancel =>
    cases h
    exact hput _ rfl rfl
  | markRunning =>
    simp only [execWrite] at h
    split at h
    · cases h
      exact .refl _
    · have hkeeps : KeepsSuccess db run.markRunning :=
        .of_not (by simp [AgentRun.markRunning, RunStatus.Successful])
      exact ((NoneSucceeds.refl db).put hkeeps rfl).event hkeeps h
  | setStarted =>
    cases h
    exact hput _ rfl rfl
  | addActiveElapsed ms =>
    cases h
    exact hput _ rfl rfl
  | reserve =>
    cases h
    exact hput _ rfl rfl
  | addStep step =>
    simp only [execWrite] at h
    split at h
    · cases h
      exact .of_runs rfl
    · cases h
      exact .refl _
  | saveCheckpoint key state =>
    cases h
    unfold saveCheckpoint
    split
    · exact .of_runs rfl
    · exact .of_runs rfl
  | stepChanged => exact (hput run rfl rfl).event (.of_find? hfind rfl rfl) h
  | _ =>
    cases h
    exact .of_runs rfl

/-- **No run becomes a success** but by what its worker reports. -/
theorem perform_noneSucceeds {issued issued' : List Issued} {op : Op} (hop : op.isFinish = false)
    (h : perform limits db now issued op = .ok (db', issued')) : NoneSucceeds db db' := by
  cases op with
  | finish i status errorCode => cases hop
  | register definitions =>
    cases h
    exact .of_runs rfl
  | create runId command callerId tenantId av =>
    obtain ⟨db₁, hok, h⟩ := bind_ok.mp h
    cases h
    exact create_noneSucceeds hok
  | start resolver runId callerId expected =>
    obtain ⟨db₁, hok, h⟩ := bind_ok.mp h
    cases h
    exact start_noneSucceeds hok
  | cancel runId callerId =>
    obtain ⟨db₁, hok, h⟩ := bind_ok.mp h
    cases h
    exact cancel_noneSucceeds hok
  | purge runId callerId =>
    obtain ⟨db₁, hok, h⟩ := bind_ok.mp h
    cases h
    exact purge_noneSucceeds hok
  | retry resolver runId callerId allowAuditor expected =>
    obtain ⟨db₁, hok, h⟩ := bind_ok.mp h
    cases h
    exact retry_noneSucceeds hok
  | approve runId callerId decision expectedVersion =>
    obtain ⟨db₁, hok, h⟩ := bind_ok.mp h
    cases h
    exact approve_noneSucceeds hok
  | claim runId owner leaseSeconds =>
    obtain ⟨⟨db₁, ctx?⟩, hok, h⟩ := bind_ok.mp h
    have hnone := claim_noneSucceeds hok
    cases ctx? <;> cases h <;> exact hnone
  | heartbeat i leaseSeconds =>
    rcases withContext_ok h with ⟨rfl, _⟩ | ⟨held, _, h⟩
    · exact .refl _
    · cases h
      exact heartbeat_noneSucceeds db leaseSeconds held.runId held.ctx
  | write i w =>
    rcases withContext_ok h with ⟨rfl, _⟩ | ⟨held, _, h⟩
    · exact .refl _
    split at h
    · cases h
      exact .refl _
    next run hfind =>
      split at h
      · obtain ⟨db₁, hok, h⟩ := bind_ok.mp h
        cases h
        have hnone := execWrite_noneSucceeds hfind hok
        exact hnone
      · cases h
        exact .refl _
  | releaseForDrain i =>
    rcases withContext_ok h with ⟨rfl, _⟩ | ⟨held, _, h⟩
    · exact .refl _
    · cases h
      exact releaseForDrain_noneSucceeds db held.runId held.ctx
  | finishAfterInvalidBoundary i =>
    rcases withContext_ok h with ⟨rfl, _⟩ | ⟨held, _, h⟩
    · exact .refl _
    · obtain ⟨⟨db₁, b⟩, hok, h⟩ := bind_ok.mp h
      cases h
      exact finishAfterInvalidBoundary_noneSucceeds hok
  | pauseForHuman i timeoutSeconds =>
    rcases withContext_ok h with ⟨rfl, _⟩ | ⟨held, _, h⟩
    · exact .refl _
    · obtain ⟨⟨db₁, b⟩, hok, h⟩ := bind_ok.mp h
      cases h
      exact pauseForHuman_noneSucceeds hok
  | reapExpired =>
    obtain ⟨⟨db₁, recovered⟩, hok, h⟩ := bind_ok.mp h
    cases h
    have hnone := reapAll_noneSucceeds hok
    exact hnone
  | repairRun runId resolver =>
    simp only [perform] at h
    split at h
    · cases h
      exact .refl _
    · obtain ⟨⟨db₁, b⟩, hok, h⟩ := bind_ok.mp h
      cases h
      have hnone := repairRun_noneSucceeds hok
      exact hnone
  | repairDeadLetter k =>
    simp only [perform] at h
    split at h
    · cases h
      exact .refl _
    · split at h
      · obtain ⟨db₁, hok, h⟩ := bind_ok.mp h
        cases h
        have hnone := repairDeadLetter_noneSucceeds hok
        exact hnone
      · cases h
        exact .refl _
  | deliver k status leaseExpiresAt =>
    cases h
    exact .of_runs rfl

/-- A run that `finish` makes a success is the run of the context, which still
owns it; and it is the success that was told. -/
theorem finish_succeeds {issued issued' : List Issued} {i : Nat} {status : RunStatus}
    {errorCode : Option String}
    (h : perform limits db now issued (.finish i status errorCode) = .ok (db', issued')) :
    NoneSucceeds db db' ∨ ∃ held before after, issued[i]? = some held ∧
      db.runs.find? held.runId = some before ∧ before.OwnedBy held.ctx ∧ after.status = status ∧
      after.runId = before.runId ∧ ∀ q run, db'.runs.find? q = some run →
        run = after ∨ db.runs.find? q = some run := by
  rcases withContext_ok h with ⟨rfl, _⟩ | ⟨held, hheld, h⟩
  · exact .inl (.refl _)
  obtain ⟨⟨db₁, b⟩, hok, h⟩ := bind_ok.mp h
  cases h
  unfold LeaseService.finish at hok
  split at hok
  · cases hok
    exact .inl (.refl _)
  next before hfind =>
  split at hok
  next hw =>
    obtain ⟨db₂, hadm, hok⟩ := bind_ok.mp hok
    obtain ⟨db₃, hcb, hok⟩ := bind_ok.mp hok
    cases hok
    obtain ⟨_, rfl, _⟩ := transitionRun_ok hadm
    obtain ⟨event, _, hcb⟩ := appendCallback_ok hcb
    obtain ⟨_, _, rfl⟩ := appendCallbackEvent_ok hcb
    refine .inr ⟨held, before, (before.endWith now status errorCode).nextEvent, hheld, hfind,
      hw.2.1, rfl, rfl, fun q run hrun => ?_⟩
    -- the row is written twice, with the status and with the number of the callback
    change ((db.runs.put (before.endWith now status errorCode)).put
      (before.endWith now status errorCode).nextEvent).find? q = some run at hrun
    rw [Table.find?_put] at hrun
    split at hrun
    · obtain ⟨_, _, rfl⟩ := Option.map_eq_some_iff.mp hrun
      exact .inl rfl
    next hq =>
      rw [Table.find?_put_ne (a := before.endWith now status errorCode) hq] at hrun
      exact .inr hrun
  · cases hok
    exact .inl (.refl _)

end AgentRuntime
