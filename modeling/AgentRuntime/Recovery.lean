import AgentRuntime.FencedWriter
import AgentRuntime.ResumedNodes
import AgentRuntime.RunProgress

/-!
# Taking a run up again

`RunQueueService.consume`: a worker reads the status of a run, claims it, and
executes an attempt, by `resume` where the run was waiting for a human or
partial, else by `run`. A `Crew` is a fleet with what its workers have read. A
claim is only granted to a run that is pending or waits, and the reaper and
`retry` leave a run pending; so most attempts that follow another one start
afresh.

`checkpointed` and `decisions` are for the proofs: what the attempts have
checkpointed, and the decisions for the fallback that no later decision about
the run has replaced. `VisitSaves` is what a visit of a node writes down, and
`VisitInvokes` what it gives to its runner.

Mirroring notes:
- The status is read in a statement before the claim, and other sessions may
  come in between.
- `finish`, `release_for_drain` and `pause_for_human` are operations of their
  own, at any time.
- `consume` claims with the status it has read; here any number of workers may
  claim with what one has read, as if all had read it at that time.
-/

namespace AgentRuntime

open Keyed Runs

/-! ## The checkpoint to resume from -/

/-- Of two checkpoints, the one the query of `load_latest` prefers: the later
one, and the one that was added later of two at one time. -/
def laterCheckpoint : Option AgentCheckpoint → AgentCheckpoint → Option AgentCheckpoint
  | some found, row => if row.createdAt < found.createdAt then some found else some row
  | none, row => some row

/-- The checkpoints of a run, in the order of their ids. -/
def checkpointsOf (db : Db) (runId : String) : List AgentCheckpoint :=
  db.checkpoints.filter fun row => decide (row.runId = runId)

def latestCheckpoint (db : Db) (runId : String) : Option AgentCheckpoint :=
  (checkpointsOf db runId).foldl laterCheckpoint none

/-- `CheckpointStore.load_latest`; none where it raises. -/
def loadLatest (db : Db) (now : Time) (runId : String) (ctx : LeaseContext) :
    Option CheckpointState :=
  if LeaseService.canWrite db now runId ctx = false then none
  else
    match latestCheckpoint db runId with
    | none => none
    | some row =>
      if row.privacyVersion ≠ ctx.privacyVersion then none
      else if row.expiresAt ≤ now then none
      else some row.state

/-! ## Workers that consume -/

/-- An attempt has checkpointed that the node is completed. -/
structure Checkpointed where
  runId : String
  executionAttempt : Nat
  nodeId : String
  deriving DecidableEq, Repr

/-- A run was sent to its fallback, after so many attempts. -/
structure FallbackDecision where
  runId : String
  executionAttempt : Nat
  deriving DecidableEq, Repr

/-- The fleet, the statuses that workers have read, and for each context the one
that was read before it was claimed. -/
structure Crew where
  fleet : Fleet := {}
  reads : List (String × Option RunStatus) := []
  seen : List (Option RunStatus) := []
  checkpointed : List Checkpointed := []
  decisions : List FallbackDecision := []

/-- What happens: an operation that is no write and no claim of a worker, a
worker reads the status of a run, claims it, begins its attempt, or comes to its
next node. -/
inductive CrewEvent
  | op (e : Event)
  | reads (runId : String)
  | claims (k : Nat) (owner : String) (elapsed : Time) (leaseSeconds : Nat)
  | begins (place : Nat) (p : Prologue)
  | visits (j : Nat) (turn : NodeTurn)

/-- The operation is one of a worker that consumes. -/
def Op.isWorkers : Op → Bool
  | .write _ _ => true
  | .claim _ _ _ => true
  | _ => false

/-- The run that a decision of a human, or the end of its wait, is about. -/
def Op.decides : Op → Option String
  | .approve runId _ _ _ => some runId
  | .retry _ runId _ _ _ => some runId
  | .repairRun runId _ => some runId
  | _ => none

/-- The decisions for the fallback after an operation. What puts a finished
run into the queue is one, or replaces the one that stood. -/
def decisionsAfter (before after : Db) (decisions : List FallbackDecision) (op : Op) :
    List FallbackDecision :=
  match op.decides with
  | none => decisions
  | some runId =>
    match before.runs.find? runId, after.runs.find? runId with
    | some run, some run' =>
      if run.dispatchState = .finished ∧ run'.dispatchState = .queued then
        if run'.errorCode = some "WAITING_HUMAN_FALLBACK" then
          decisions ++ [⟨runId, run'.executionAttempt⟩]
        else decisions.filter fun d => decide (d.runId ≠ runId)
      else decisions
    | _, _ => decisions

/-- What the checkpoints say that are new in `after`. -/
def checkpointedAfter (before after : Db) (executionAttempt : Nat) : List Checkpointed :=
  (after.checkpoints.filter fun row => decide (row ∉ before.checkpoints)).flatMap fun row =>
    row.state.completedNodeIds.map fun nodeId => ⟨row.runId, executionAttempt, nodeId⟩

/-- `status in {"waiting_human", "partial"}`. -/
def Resumes (status : Option RunStatus) : Prop :=
  status = some .waitingHuman ∨ status = some .partialSucceeded

instance (status : Option RunStatus) : Decidable (Resumes status) := by
  unfold Resumes; infer_instance

namespace Crew

variable (limits : AdmissionLimits)

/-- What the attempt of a worker starts from. -/
def startsFrom (c : Crew) (status : Option RunStatus) (held : Issued) :
    Option (Option CheckpointState) :=
  if Resumes status then
    some (loadLatest c.fleet.sys.db c.fleet.sys.clock held.runId held.ctx)
  else none

/-- An operation. -/
def operates (c : Crew) (e : Event) : Crew :=
  let fleet := c.fleet.happens limits (.op e)
  { c with
    fleet := fleet
    decisions := decisionsAfter c.fleet.sys.db fleet.sys.db c.decisions e.op }

/-- The claim of a worker that has read a status; without a context it gives
up. -/
def claims (c : Crew) (runId owner : String) (status : Option RunStatus) (elapsed : Time)
    (leaseSeconds : Nat) : Crew :=
  let fleet := c.fleet.happens limits (.op ⟨elapsed, .claim runId owner leaseSeconds⟩)
  { c with
    fleet := fleet
    seen :=
      if c.fleet.sys.issued.length < fleet.sys.issued.length then c.seen ++ [status] else c.seen }

/-- The attempt of a worker begins. Whether it may write is what the lease says. -/
def begins (c : Crew) (place : Nat) (held : Issued) (status : Option RunStatus) (p : Prologue) :
    Crew :=
  let mayWrite := LeaseService.canWrite c.fleet.sys.db c.fleet.sys.clock held.runId held.ctx
  { c with
    fleet := c.fleet.happens limits
      (.begins place { p with mayWrite := mayWrite } (c.startsFrom status held)) }

/-- A worker comes to its next node. -/
def visits (c : Crew) (j : Nat) (w : PlanWorker) (turn : NodeTurn) : Crew :=
  let fleet := c.fleet.happens limits (.visits j turn)
  { c with
    fleet := fleet
    checkpointed := c.checkpointed ++
      checkpointedAfter c.fleet.sys.db fleet.sys.db w.executionAttempt }

def happens (c : Crew) : CrewEvent → Crew
  | .op e => if e.op.isWorkers = true then c else c.operates limits e
  | .reads runId =>
    { c with reads := c.reads ++ [(runId, (c.fleet.sys.db.runs.find? runId).map (·.status))] }
  | .claims k owner elapsed leaseSeconds =>
    match c.reads[k]? with
    | none => c
    | some (runId, status) => c.claims limits runId owner status elapsed leaseSeconds
  | .begins place p =>
    match c.fleet.sys.issued[place]?, c.seen[place]? with
    | some held, some status =>
      if c.fleet.workers.any (fun w => decide (w.place = place)) = true then c
      else c.begins limits place held status p
    | _, _ => c
  | .visits j turn =>
    match c.fleet.workers[j]? with
    | none => c
    | some w => c.visits limits j w turn

/-- The crew after what has happened, from an empty database. -/
def reach (es : List CrewEvent) : Crew :=
  Runs.run (happens limits) {} es

end Crew

/-! ## What a visit writes down -/

/-- The key of the checkpoint of an attempt after so many steps. -/
def checkpointKey (executionAttempt completedSteps : Nat) : String :=
  s!"attempt:{executionAttempt}:step:{completedSteps}"

/-- The node that a write says is done. -/
def doneBy : ExecWrite → List String
  | .addStep step => if step.Done then [step.stepName] else []
  | _ => []

/-- What is completed was so before, or the writes say that it is done. -/
def Accounts (s s' : Executing) (writes : List ExecWrite) : Prop :=
  ∀ x ∈ s'.completedNodeIds, x ∈ s.completedNodeIds ∨ x ∈ writes.flatMap doneBy

theorem Accounts.of_ids {s s' : Executing} {writes : List ExecWrite}
    (h : s'.completedNodeIds = s.completedNodeIds) : Accounts s s' writes :=
  fun _ hx => .inl (h ▸ hx)

/-- A write that does not touch the checkpoints. -/
def Dry : ExecWrite → Prop
  | .saveCheckpoint _ _ => False
  | .purgeCheckpoints => False
  | _ => True

/-- No node is completed, and what is written is dry. -/
structure Idles (s s' : Executing) : Prop where
  runId : s'.run.runId = s.run.runId
  ids : s'.completedNodeIds = s.completedNodeIds
  steps : s'.completedSteps = s.completedSteps
  writes : ∃ writes, s'.writes = s.writes ++ writes ∧ ∀ w ∈ writes, Dry w

namespace Idles

variable {s s' s'' : Executing}

theorem refl (s : Executing) : Idles s s :=
  ⟨rfl, rfl, rfl, [], (List.append_nil _).symm, fun _ h => (nomatch h)⟩

theorem trans (h : Idles s s') (h' : Idles s' s'') : Idles s s'' := by
  obtain ⟨writes, hw, hall⟩ := h.writes
  obtain ⟨writes', hw', hall'⟩ := h'.writes
  refine ⟨h'.runId.trans h.runId, h'.ids.trans h.ids, h'.steps.trans h.steps, writes ++ writes',
    by rw [hw', hw, List.append_assoc], fun w hmem => ?_⟩
  rcases List.mem_append.mp hmem with hmem | hmem
  · exact hall w hmem
  · exact hall' w hmem

/-- What was written before, and more of it. -/
theorem emit (h : Idles s s') {writes : List ExecWrite} (hdry : ∀ w ∈ writes, Dry w)
    (hrun : s''.run = s'.run) (hids : s''.completedNodeIds = s'.completedNodeIds)
    (hsteps : s''.completedSteps = s'.completedSteps) (hwrites : s''.writes = s'.writes ++ writes) :
    Idles s s'' :=
  h.trans ⟨by rw [hrun], hids, hsteps, writes, hwrites, hdry⟩

end Idles

/-- What a visit leaves behind: nodes are only added to the completed ones, their
rows are written, and if a checkpoint is saved, it is one of this step and says
what is completed, after the rows. -/
structure VisitSaves (c : AttemptContext) (s s' : Executing) : Prop where
  runId : s'.run.runId = s.run.runId
  ids : ∀ x ∈ s.completedNodeIds, x ∈ s'.completedNodeIds
  steps : s.completedSteps ≤ s'.completedSteps
  writes : (∃ writes, s'.writes = s.writes ++ writes ∧ (∀ w ∈ writes, Dry w) ∧
      Accounts s s' writes) ∨
    ∃ front back waitingHuman, s'.writes = s.writes ++ (front ++
        .saveCheckpoint (checkpointKey c.executionAttempt s'.completedSteps)
          (c.checkpointState s' waitingHuman) :: back) ∧
      (∀ w ∈ front, Dry w) ∧ (∀ w ∈ back, Dry w) ∧ s'.completedSteps = s.completedSteps + 1 ∧
      Accounts s s' front

theorem Idles.saves {s s' : Executing} (h : Idles s s') (c : AttemptContext) : VisitSaves c s s' :=
  let ⟨writes, hwrites, hdry⟩ := h.writes
  ⟨h.runId, fun _ hx => h.ids.symm ▸ hx, h.steps.ge, .inl ⟨writes, hwrites, hdry, .of_ids h.ids⟩⟩

theorem Executing.wait_idles (s : Executing) (w : ProviderWait) : Idles s (s.wait w) := by
  unfold Executing.wait
  dsimp only
  split
  · refine ⟨rfl, rfl, rfl, [.addActiveElapsed (w.length / 1000)], rfl, fun w hw => ?_⟩
    rw [List.mem_singleton.mp hw]
    trivial
  · exact ⟨rfl, rfl, rfl, [], (List.append_nil _).symm, fun _ h => (nomatch h)⟩

theorem Executing.waitAll_idles (waits : List ProviderWait) :
    ∀ s : Executing, Idles s (s.waitAll waits) := by
  induction waits with
  | nil => exact Idles.refl
  | cons w waits ih => exact fun s => (s.wait_idles w).trans (ih (s.wait w))

namespace AttemptContext

variable (c : AttemptContext) {s : Executing} {node : PlanNode}

/-- The row of a node is dry. -/
theorem stepRow_dry (s : Executing) (node : PlanNode) (status : String) (code : Option String) :
    ∀ w ∈ [c.stepRow s node status code], Dry w := by
  intro w hw
  rw [List.mem_singleton.mp hw]
  trivial

/-- So is what is written of a node that is done, before its checkpoint; the row
says that it is. -/
theorem markDone_dry (s : Executing) (node : PlanNode) (activeBefore : Nat)
    (skipped degraded : Bool) :
    ∃ writes, (c.markDone s node activeBefore skipped degraded).writes = s.writes ++ writes ∧
      (∀ w ∈ writes, Dry w) ∧ node.nodeId ∈ writes.flatMap doneBy := by
  refine ⟨[.addActiveElapsed _, c.stepRow s node _ none], List.append_assoc s.writes [_] [_],
    fun w hw => ?_, List.mem_flatMap.mpr
      ⟨_, List.mem_cons_of_mem _ List.mem_cons_self, ?_⟩⟩
  · rcases List.mem_cons.mp hw with rfl | hw
    · trivial
    · exact c.stepRow_dry s node _ none w hw
  · have hdone : ∀ step : AgentStep, step.Done → step.stepName ∈ doneBy (.addStep step) :=
      fun step hstep => by simp [doneBy, hstep]
    refine hdone _ ?_
    cases skipped with
    | false => exact .inl rfl
    | true => exact .inr rfl

/-- The node is done, the row is written and the checkpoint saved. -/
theorem afterDone_saves {s₀ : Executing} (s : Executing) (node : PlanNode) (waitingHuman : Bool)
    (hrun : s.run.runId = s₀.run.runId) (hids : ∀ x ∈ s₀.completedNodeIds, x ∈ s.completedNodeIds)
    (hsteps : s.completedSteps = s₀.completedSteps + 1)
    (hwrites : ∃ writes, s.writes = s₀.writes ++ writes ∧ (∀ w ∈ writes, Dry w) ∧
      Accounts s₀ s writes) :
    VisitSaves c s₀ (c.afterDone s node waitingHuman) := by
  obtain ⟨front, hfront, hdry, haccounts⟩ := hwrites
  -- what is saved, and what may come after it
  have hsaved : ∀ (s' : Executing) (back : List ExecWrite), s'.run = s.run →
      s'.completedNodeIds = s.completedNodeIds → s'.completedSteps = s.completedSteps →
      s'.writes = s.writes ++ .saveCheckpoint (checkpointKey c.executionAttempt s.completedSteps)
        (c.checkpointState s waitingHuman) :: back →
      (∀ w ∈ back, Dry w) → VisitSaves c s₀ s' := by
    intro s' back hrun' hids' hsteps' hwrites' hback
    refine ⟨by rw [hrun', hrun], fun x hx => hids'.symm ▸ hids x hx, by omega,
      .inr ⟨front, back, waitingHuman, ?_, hdry, hback, hsteps'.trans hsteps,
        fun x hx => haccounts x (hids' ▸ hx)⟩⟩
    have hstate : c.checkpointState s' waitingHuman = c.checkpointState s waitingHuman := by
      unfold checkpointState
      rw [hids', hsteps']
    rw [hwrites', hfront, hsteps', hstate, List.append_assoc]
  unfold afterDone
  dsimp only
  split
  · exact ⟨hrun, hids, by show s₀.completedSteps ≤ s.completedSteps; omega,
      .inl ⟨front, hfront, hdry, haccounts⟩⟩
  split
  · exact hsaved _ [] rfl rfl rfl rfl fun _ h => (nomatch h)
  split
  · split
    · exact hsaved _ [] rfl rfl rfl rfl fun _ h => (nomatch h)
    split
    · exact hsaved _ [] rfl rfl rfl rfl fun _ h => (nomatch h)
    · exact hsaved _ [] rfl rfl rfl rfl fun _ h => (nomatch h)
  · refine hsaved _ [.stepChanged] rfl rfl rfl (List.append_assoc s.writes [_] [_]) fun w hw => ?_
    rw [List.mem_singleton.mp hw]
    trivial

theorem invoke_saves (s : Executing) (node : PlanNode) : VisitSaves c s (c.invoke s node) := by
  have hwaited : Idles s (s.handOver node (c.turn node.nodeId).waits) :=
    (s.waitAll_idles (c.turn node.nodeId).waits).trans
      ⟨rfl, rfl, rfl, [], (List.append_nil _).symm, fun _ h => (nomatch h)⟩
  have hrow : ∀ (s₁ s₂ s' : Executing) (status : String) (code : Option String), Idles s s₁ →
      s'.run = s₁.run → s'.completedNodeIds = s₁.completedNodeIds →
      s'.completedSteps = s₁.completedSteps →
      s'.writes = s₁.writes ++ [c.stepRow s₂ node status code] → VisitSaves c s s' :=
    fun s₁ s₂ s' status code h hrun hids hsteps hwrites =>
      (h.emit (c.stepRow_dry s₂ node status code) hrun hids hsteps hwrites).saves c
  have hloop : ∀ s₁ reason, Idles s s₁ → VisitSaves c s (c.stopLoop s₁ node reason) := by
    intro s₁ reason h
    unfold stopLoop
    dsimp only
    split
    · exact hrow s₁ _ _ _ _ h rfl rfl rfl rfl
    · exact hrow s₁ _ _ _ _ h rfl rfl rfl rfl
  -- the outcomes, in the order of `NodeOutcome`; only a completed node is checkpointed
  unfold invoke
  dsimp only
  split
  · exact hloop s _ (Idles.refl s)
  · exact hloop _ _ hwaited
  · exact hrow _ s _ _ _ hwaited rfl rfl rfl rfl
  · exact hrow _ s _ _ _ hwaited rfl rfl rfl rfl
  · unfold raise
    dsimp only
    split
    · exact hrow _ _ _ _ _ hwaited rfl rfl rfl rfl
    · exact hrow _ _ _ _ _ hwaited rfl rfl rfl rfl
  next skipped waitingHuman degraded _ =>
    unfold complete
    dsimp only
    split
    · exact hrow _ _ _ _ _ hwaited rfl rfl rfl rfl
    split
    · exact hrow _ _ _ _ _ hwaited rfl rfl rfl rfl
    split
    · exact hrow _ _ _ _ _ hwaited rfl rfl rfl rfl
    · obtain ⟨front, hfront, hdry⟩ := hwaited.writes
      obtain ⟨back, hback, hdry', hdone⟩ := c.markDone_dry
        (s.handOver node (c.turn node.nodeId).waits) node s.run.activeElapsedMs skipped degraded
      refine c.afterDone_saves _ node waitingHuman hwaited.runId (fun x hx => ?_) ?_
        ⟨front ++ back, ?_, fun w hw => ?_, fun x hx => ?_⟩
      · refine List.mem_insert_of_mem ?_
        rw [hwaited.ids]
        exact hx
      · exact congrArg (· + 1) hwaited.steps
      · rw [hback, hfront, List.append_assoc]
      · rcases List.mem_append.mp hw with hw | hw
        · exact hdry w hw
        · exact hdry' w hw
      · rcases List.mem_insert_iff.mp hx with rfl | hx
        · rw [List.flatMap_append]
          exact .inr (List.mem_append_right _ hdone)
        · rw [hwaited.ids] at hx
          exact .inl hx

/-- A refusal of the checks writes at most that the run is to be cancelled. -/
theorem refusal_dry {checks : NodeChecks} {runId : String} {r : AgentRunResult}
    {writes : List ExecWrite} (h : checks.refusal runId = some (r, writes)) :
    ∀ w ∈ writes, Dry w := by
  have hnone : ∀ w ∈ ([] : List ExecWrite), Dry w := fun _ hw => (nomatch hw)
  have hcancel : ∀ w ∈ [ExecWrite.requestCancel], Dry w := by
    intro w hw
    rw [List.mem_singleton.mp hw]
    trivial
  unfold NodeChecks.refusal at h
  split at h
  · cases h
    exact hnone
  split at h
  · cases h
    exact hcancel
  split at h
  · cases h
    exact hcancel
  split at h
  · cases h
    exact hnone
  split at h
  · cases h
    exact hnone
  split at h
  · cases h
    exact hnone
  · cases h

theorem check_saves (s : Executing) (node : PlanNode) : VisitSaves c s (c.check s node) := by
  unfold check
  dsimp only
  split
  · exact ⟨rfl, fun _ hx => hx, Nat.le_refl _, .inl ⟨[], (List.append_nil _).symm,
      fun _ h => (nomatch h), .of_ids rfl⟩⟩
  split
  next r writes hrefusal =>
    exact ⟨rfl, fun _ hx => hx, Nat.le_refl _, .inl ⟨writes, rfl, refusal_dry hrefusal, .of_ids rfl⟩⟩
  · -- the clock is not written down
    obtain ⟨hrun, hids, hsteps, hwrites⟩ :=
      c.invoke_saves { s with clock := s.clock + (c.turn node.nodeId).toCheck } node
    exact ⟨hrun, hids, hsteps, hwrites⟩

theorem enter_saves (s : Executing) (node : PlanNode) : VisitSaves c s (c.enter s node) := by
  unfold enter
  split
  · split
    · exact ⟨rfl, fun _ hx => hx, Nat.le_refl _, .inl ⟨[], (List.append_nil _).symm,
        fun _ h => (nomatch h), .of_ids rfl⟩⟩
    · exact (Idles.refl s).saves c
    · exact c.check_saves s node
  · exact c.check_saves s node

/-- **A visit** saves a checkpoint of what is completed, if any. -/
theorem visit_saves (s : Executing) (node : PlanNode) : VisitSaves c s (c.visit s node) := by
  unfold visit
  split
  · exact (Idles.refl s).saves c
  split
  · exact c.enter_saves s node
  · split
    · obtain ⟨hrun, hids, hsteps, hwrites⟩ := c.enter_saves { s with skipping := none } node
      exact ⟨hrun, hids, hsteps, hwrites⟩
    · exact (Idles.refl s).saves c

end AttemptContext

/-! ## What a visit gives to its runner -/

/-- A node that is entered is given to its runner at most, and not if it stays
done. -/
structure VisitInvokes (s : Executing) (node : PlanNode) (s' : Executing) : Prop where
  invoked : s'.invoked = s.invoked ∨
    (¬ StaysDone s.completedNodeIds node ∧ s'.invoked = s.invoked ++ [node.nodeId])
  skipping : s'.ended = none → s'.skipping = none

namespace AttemptContext

variable (c : AttemptContext) {s : Executing}

theorem enter_invokes (node : PlanNode) (hopen : s.ended = none) (hskipping : s.skipping = none) :
    VisitInvokes s node (c.enter s node) := by
  rcases c.enter_cases (Iff.refl (node.nodeId ∈ s.completedNodeIds)) with
    ⟨_, henter⟩ | ⟨_, henter⟩ | ⟨hdone, _, henter⟩
  · rw [henter]
    exact ⟨.inl rfl, fun _ => hskipping⟩
  · rw [henter]
    exact ⟨.inl rfl, fun _ => hskipping⟩
  rw [henter]
  rcases c.check_cases s node hopen with ⟨code, _, hfail⟩ | ⟨_, hstops | hgoes⟩
  · rw [hfail]
    exact ⟨.inl rfl, fun _ => hskipping⟩
  · obtain ⟨e, hended, _⟩ := hstops.ended
    refine ⟨hstops.invoked.imp_right fun h => ⟨hdone, h⟩, fun hnone => ?_⟩
    rw [hended] at hnone
    cases hnone
  · exact ⟨.inr ⟨hdone, hgoes.invoked⟩, fun _ => hgoes.skipping.trans hskipping⟩

/-- A visit leaves the attempt as it is, or it enters the node, and is past its
target then. -/
theorem visit_invokes (s : Executing) (node : PlanNode) :
    (c.visit s node = s ∧ (s.ended ≠ none ∨ ∃ t, s.skipping = some t ∧ node.nodeId ≠ t)) ∨
    (s.ended = none ∧ (s.skipping = none ∨ s.skipping = some node.nodeId) ∧
      VisitInvokes s node (c.visit s node)) := by
  by_cases hopen : s.ended = none
  · cases hskipping : s.skipping with
    | none =>
      rw [c.visit_open hopen hskipping]
      exact .inr ⟨hopen, .inl rfl, c.enter_invokes node hopen hskipping⟩
    | some t =>
      unfold visit
      rw [hopen, hskipping, if_neg (by simp)]
      dsimp only
      by_cases hnode : node.nodeId = t
      · rw [if_pos hnode]
        -- only what the attempt skips to is different here
        obtain ⟨hinvoked, hskip⟩ :=
          @enter_invokes c { s with skipping := none } node hopen rfl
        rw [hopen] at hinvoked hskip
        exact .inr ⟨rfl, .inr (by rw [hnode]), hinvoked, hskip⟩
      · rw [if_neg hnode]
        exact .inl ⟨rfl, .inr ⟨t, rfl, hnode⟩⟩
  · unfold visit
    rw [if_pos (Option.isSome_iff_ne_none.mpr hopen)]
    exact .inl ⟨rfl, .inl hopen⟩

end AttemptContext

end AgentRuntime
