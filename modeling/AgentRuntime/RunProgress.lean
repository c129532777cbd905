import AgentRuntime.ActiveElapsed
import AgentRuntime.StepRows
import Mathlib.Data.List.Dedup

/-!
# The progress of a run

`AgentRunService.get` counts the completed step rows of all attempts of a run
against the nodes of its plan. Workers execute attempts while everything else
goes on: a `Fleet` is the system with the workers that are at a plan, a visit
of a node is one step of it, and a worker may stop at any of them. As every
row is for a node of the plan (`Orderly`), the completed rows are those of
distinct nodes and those of nodes that were completed before, and the progress
stays in range as long as the latter fit into what is left of the plan
(`progress_in_range_iff`).

Mirroring notes:
- `consume` reads the status before it claims, so which of `run` and `resume`
  a worker takes is any, and so is what `load_latest` finds.
- The quotient of `get` is exact; it is rounded there, too late to matter for
  numbers of this size.
-/

namespace AgentRuntime

open Keyed Runs

/-! ## What is asked for -/

/-- A row of a node that is done. -/
def AgentStep.Done (step : AgentStep) : Prop :=
  step.status = "succeeded" ∨ step.status = "skipped"

instance (step : AgentStep) : Decidable step.Done := by
  unfold AgentStep.Done; infer_instance

/-- `_step_records`. -/
def stepRecords (db : Db) (runId : String) : List AgentStep :=
  db.steps.filter (fun step => decide (step.runId = runId))

/-- The progress in what `get` returns. -/
def AgentRunService.progress (db : Db) (runId : String) : Nat :=
  let plannedCount :=
    match db.plan? runId with
    | some plan => plan.steps.length
    | none => (stepRecords db runId).length
  let completedCount := (stepRecords db runId).countP (fun step => decide step.Done)
  if plannedCount = 0 then 0 else completedCount * 100 / plannedCount

/-! ## Workers -/

/-- A worker at the plan of a run: its context among the issued ones, and the
nodes it has not come to. -/
structure PlanWorker where
  place : Nat
  runId : String
  executionAttempt : Nat
  plan : AgentPlan
  state : Executing
  left : List PlanNode

/-- The system and the workers at their plans. -/
structure Fleet where
  sys : Sys := {}
  workers : List PlanWorker := []

/-- What happens: an operation that is not the write of a worker, a worker
begins an attempt, fresh or from what `load_latest` gives, or it comes to its
next node. -/
inductive Happening
  | op (e : Event)
  | begins (i : Nat) (p : Prologue) (resumed : Option (Option CheckpointState))
  | visits (j : Nat) (turn : NodeTurn)

namespace AttemptContext

variable (c : AttemptContext)

/-- The attempt before its first node, where it comes to one. -/
def opening (p : Prologue) (run : AgentRun) :
    Option (Option CheckpointState) → Option Executing
  | none => c.atFirstNode p run [] none
  | some none => none
  | some (some state) =>
    if state.extraKeys = [] then
      c.atFirstNode p run state.completedNodeIds state.resumeFromNodeId
    else none

/-- The whole attempt. -/
def attempt (p : Prologue) (run : AgentRun) : Option (Option CheckpointState) → Executing
  | none => c.fresh p run
  | some loaded => c.resume p run loaded

end AttemptContext

namespace Fleet

/-- The writes of a worker, one after the other. -/
def commitWrites (limits : AdmissionLimits) (place : Nat) (sys : Sys) (writes : List ExecWrite) :
    Sys :=
  writes.foldl (fun sys w => step limits sys ⟨0, .write place w⟩) sys

/-- A worker begins; a refused attempt only leaves its writes. -/
def begins (limits : AdmissionLimits) (f : Fleet) (i : Nat) (held : Issued) (p : Prologue)
    (resumed : Option (Option CheckpointState)) (run : AgentRun) (plan : AgentPlan) : Fleet :=
  let c : AttemptContext :=
    { plan := plan, executionAttempt := held.ctx.executionAttempt, turn := fun _ => {} }
  match c.opening p run resumed with
  | none => { f with sys := commitWrites limits i f.sys (c.attempt p run resumed).writes }
  | some s =>
    -- `running` is committed before the first node
    { sys := commitWrites limits i f.sys s.writes
      workers := f.workers ++ [{
        place := i
        runId := held.runId
        executionAttempt := held.ctx.executionAttempt
        plan := plan
        state := s
        left := plan.steps }] }

/-- A worker comes to its next node, and reads its run again. -/
def visits (limits : AdmissionLimits) (f : Fleet) (j : Nat) (w : PlanWorker) (run : AgentRun)
    (node : PlanNode) (rest : List PlanNode) (turn : NodeTurn) : Fleet :=
  let c : AttemptContext :=
    { plan := w.plan, executionAttempt := w.executionAttempt, turn := fun _ => turn }
  let s := { w.state with run := run }
  let s' := c.visit s node
  -- what the visit has added is committed write by write, each under the fence
  { sys := commitWrites limits w.place f.sys (s'.writes.drop s.writes.length)
    workers := f.workers.set j { w with state := s', left := rest } }

def happens (limits : AdmissionLimits) (f : Fleet) : Happening → Fleet
  | .op e => if e.op.isWrite = true then f else { f with sys := step limits f.sys e }
  | .begins i p resumed =>
    match f.sys.issued[i]? with
    | none => f
    | some held =>
      match f.sys.db.runs.find? held.runId, f.sys.db.plan? held.runId with
      | some run, some plan => f.begins limits i held p resumed run plan
      | _, _ => f
  | .visits j turn =>
    match f.workers[j]? with
    | none => f
    | some w =>
      match f.sys.db.runs.find? w.runId, w.left with
      | some run, node :: rest => f.visits limits j w run node rest turn
      | _, _ => f

/-- The fleet after what has happened, from an empty database. -/
def reach (limits : AdmissionLimits) (hs : List Happening) : Fleet :=
  Runs.run (happens limits) {} hs

end Fleet

/-! ## What an attempt writes -/

/-- The write does not touch the steps, or adds a row of the node. -/
def OfNode (runId name : String) : ExecWrite → Prop
  | .addStep step => step.runId = runId ∧ step.stepName = name
  | .setStep _ _ _ => False
  | .autoRetry _ => False
  | _ => True

/-- A write that does not touch the steps. -/
def Quiet (w : ExecWrite) : Prop :=
  ∀ runId name, OfNode runId name w

/-- A write of an attempt before its first node. -/
def OpensAttempt : ExecWrite → Prop
  | .clearErrorCode => True
  | .requestCancel => True
  | .markRunning => True
  | .setStarted => True
  | .purgeCheckpoints => True
  | _ => False

theorem OpensAttempt.quiet {w : ExecWrite} (h : OpensAttempt w) : Quiet w := by
  intro runId name
  cases w with
  | addStep | setStep | autoRetry => exact h.elim
  | _ => trivial

/-- What was written in between is of the node. -/
def WritesNode (name : String) (s s' : Executing) : Prop :=
  s'.run.runId = s.run.runId ∧
    ∃ writes, s'.writes = s.writes ++ writes ∧ ∀ w ∈ writes, OfNode s.run.runId name w

namespace WritesNode

variable {name : String} {s s' s'' : Executing}

theorem refl (name : String) (s : Executing) : WritesNode name s s :=
  ⟨rfl, [], (List.append_nil _).symm, fun _ h => (nomatch h)⟩

theorem trans (h : WritesNode name s s') (h' : WritesNode name s' s'') :
    WritesNode name s s'' := by
  obtain ⟨hid, writes, hw, hall⟩ := h
  obtain ⟨hid', writes', hw', hall'⟩ := h'
  refine ⟨hid'.trans hid, writes ++ writes', by rw [hw', hw, List.append_assoc], fun w hmem => ?_⟩
  rcases List.mem_append.mp hmem with hmem | hmem
  · exact hall w hmem
  · rw [← hid]
    exact hall' w hmem

theorem emit (name : String) (s : Executing) {writes : List ExecWrite}
    (h : ∀ w ∈ writes, OfNode s.run.runId name w) : WritesNode name s (s.emit writes) :=
  ⟨rfl, writes, rfl, h⟩

end WritesNode

theorem Executing.wait_writes (name : String) (s : Executing) (w : ProviderWait) :
    WritesNode name s (s.wait w) := by
  unfold Executing.wait
  dsimp only
  split
  · refine ⟨rfl, [.addActiveElapsed (w.length / 1000)], rfl, fun w hw => ?_⟩
    rw [List.mem_singleton.mp hw]
    trivial
  · exact ⟨rfl, [], (List.append_nil _).symm, fun _ h => (nomatch h)⟩

theorem Executing.waitAll_writes (name : String) (waits : List ProviderWait) :
    ∀ s : Executing, WritesNode name s (s.waitAll waits) := by
  induction waits with
  | nil => exact WritesNode.refl name
  | cons w waits ih => exact fun s => (s.wait_writes name w).trans (ih (s.wait w))

namespace AttemptContext

variable (c : AttemptContext) {s : Executing} {node : PlanNode}

/-- The row of the node, after what was written so far. -/
theorem row_writes {s₀ s₁ s' : Executing} {status : String} {code : Option String}
    (h : WritesNode node.nodeId s s₁) (hid : s₀.run.runId = s.run.runId) (hrun : s'.run = s₁.run)
    (hwrites : s'.writes = s₁.writes ++ [c.stepRow s₀ node status code]) :
    WritesNode node.nodeId s s' := by
  obtain ⟨hid₁, writes, hw, hall⟩ := h
  refine ⟨by rw [hrun, hid₁], writes ++ [c.stepRow s₀ node status code],
    by rw [hwrites, hw, List.append_assoc], fun w hmem => ?_⟩
  rcases List.mem_append.mp hmem with hmem | hmem
  · exact hall w hmem
  · rw [List.mem_singleton.mp hmem]
    exact ⟨hid, rfl⟩

theorem markDone_writes (s : Executing) (node : PlanNode) (activeBefore : Nat)
    (skipped degraded : Bool) :
    WritesNode node.nodeId s (c.markDone s node activeBefore skipped degraded) := by
  refine ⟨rfl, [.addActiveElapsed _, c.stepRow s node _ none],
    List.append_assoc s.writes [_] [_], fun w hw => ?_⟩
  rcases List.mem_cons.mp hw with rfl | hw
  · trivial
  · rw [List.mem_singleton.mp hw]
    exact ⟨rfl, rfl⟩

theorem afterDone_writes (s : Executing) (node : PlanNode) (waitingHuman : Bool) :
    WritesNode node.nodeId s (c.afterDone s node waitingHuman) := by
  have hsaved : ∀ key state, WritesNode node.nodeId s (s.emit [.saveCheckpoint key state]) :=
    fun key state => WritesNode.emit _ s fun w hw => by
      rw [List.mem_singleton.mp hw]
      trivial
  unfold afterDone
  dsimp only
  split
  · exact ⟨rfl, [], (List.append_nil _).symm, fun _ h => (nomatch h)⟩
  split
  · exact hsaved _ _
  split
  · split
    · exact hsaved _ _
    split
    · exact hsaved _ _
    · exact hsaved _ _
  · refine (hsaved _ _).trans (WritesNode.emit _ _ fun w hw => ?_)
    rw [List.mem_singleton.mp hw]
    trivial

theorem invoke_writes (s : Executing) (node : PlanNode) :
    WritesNode node.nodeId s (c.invoke s node) := by
  have hwaited : WritesNode node.nodeId s (s.handOver node (c.turn node.nodeId).waits) :=
    s.waitAll_writes node.nodeId (c.turn node.nodeId).waits
  have hid := hwaited.1
  -- the outcomes, in the order of `NodeOutcome`; each ends in the row of the node
  have hloop : ∀ s₁ reason, WritesNode node.nodeId s s₁ →
      WritesNode node.nodeId s (c.stopLoop s₁ node reason) := by
    intro s₁ reason h
    unfold stopLoop
    dsimp only
    split
    · exact c.row_writes h h.1 rfl rfl
    · exact c.row_writes h h.1 rfl rfl
  unfold invoke
  dsimp only
  split
  · exact hloop s _ (WritesNode.refl _ s)
  · exact hloop _ _ hwaited
  · exact @row_writes c s node s _ _ _ _ hwaited rfl rfl rfl
  · exact @row_writes c s node s _ _ _ _ hwaited rfl rfl rfl
  · unfold raise
    dsimp only
    split
    · exact c.row_writes hwaited hid rfl rfl
    · exact c.row_writes hwaited hid rfl rfl
  · unfold complete
    dsimp only
    split
    · exact c.row_writes hwaited hid rfl rfl
    split
    · exact c.row_writes hwaited hid rfl rfl
    split
    · exact c.row_writes hwaited hid rfl rfl
    · exact hwaited.trans ((c.markDone_writes _ node _ _ _).trans (c.afterDone_writes _ node _))

theorem check_writes (s : Executing) (node : PlanNode) :
    WritesNode node.nodeId s (c.check s node) := by
  have hstopped : ∀ checks : NodeChecks, ∀ r writes,
      checks.refusal s.run.runId = some (r, writes) →
      ∀ w ∈ writes, OfNode s.run.runId node.nodeId w := by
    intro checks r writes h w hw
    unfold NodeChecks.refusal at h
    split at h
    · cases h
      cases hw
    split at h
    · cases h
      rw [List.mem_singleton.mp hw]
      trivial
    split at h
    · cases h
      rw [List.mem_singleton.mp hw]
      trivial
    split at h
    · cases h
      cases hw
    split at h
    · cases h
      cases hw
    split at h
    · cases h
      cases hw
    · cases h
  unfold check
  dsimp only
  split
  · exact ⟨rfl, [], (List.append_nil _).symm, fun _ h => (nomatch h)⟩
  split
  next r writes hrefusal => exact ⟨rfl, writes, rfl, hstopped _ r writes hrefusal⟩
  · exact c.invoke_writes { s with clock := s.clock + (c.turn node.nodeId).toCheck } node

/-- **A visit** adds rows of its node only. -/
theorem visit_writes (s : Executing) (node : PlanNode) :
    WritesNode node.nodeId s (c.visit s node) := by
  have hstop : ∀ e, WritesNode node.nodeId s (s.stop node e) :=
    fun e => ⟨rfl, [], (List.append_nil _).symm, fun _ h => (nomatch h)⟩
  have henter : ∀ s, WritesNode node.nodeId s (c.enter s node) := by
    intro s
    unfold enter
    split
    · split
      · exact ⟨rfl, [], (List.append_nil _).symm, fun _ h => (nomatch h)⟩
      · exact WritesNode.refl _ s
      · exact c.check_writes s node
    · exact c.check_writes s node
  unfold visit
  split
  · exact WritesNode.refl _ s
  split
  · exact henter s
  · split
    · exact henter { s with skipping := none }
    · exact WritesNode.refl _ s

/-- An attempt that does not come to a node writes what opens one. -/
theorem execute_opens {p : Prologue} {run : AgentRun} {ids : List String} {target : Option String}
    (h : c.atFirstNode p run ids target = none) :
    ∀ w ∈ (c.execute p run ids target).writes, OpensAttempt w := by
  have hcleared : ∀ (s : Executing) (b : Bool), s.writes = [] →
      ∀ w ∈ (s.emit (if b = true then [.clearErrorCode] else [])).writes, OpensAttempt w := by
    intro s b hnone w hw
    rw [show (s.emit _).writes = s.writes ++ _ from rfl, hnone, List.nil_append] at hw
    split at hw
    · rw [List.mem_singleton.mp hw]
      trivial
    · cases hw
  unfold atFirstNode at h
  unfold execute
  dsimp only
  split
  · exact fun w hw => (nomatch hw)
  next nodes hgraph =>
  split
  · exact fun w hw => (nomatch hw)
  next target' htarget =>
  split
  next r writes hrefusal =>
    intro w hw
    rcases List.mem_append.mp hw with hclear | hrefused
    · exact hcleared _ _ rfl w hclear
    · unfold Prologue.refusal at hrefusal
      clear hw
      split at hrefusal
      · cases hrefusal
        rw [List.mem_singleton.mp hrefused]
        trivial
      split at hrefusal
      · cases hrefusal
        rw [List.mem_singleton.mp hrefused]
        trivial
      split at hrefusal
      · cases hrefusal
        cases hrefused
      split at hrefusal
      · cases hrefusal
        cases hrefused
      · cases hrefusal
  next hopen =>
    rw [hgraph, htarget, hopen] at h
    cases h

theorem attempt_opens {p : Prologue} {run : AgentRun} {resumed : Option (Option CheckpointState)}
    (h : c.opening p run resumed = none) :
    ∀ w ∈ (c.attempt p run resumed).writes, OpensAttempt w := by
  cases resumed with
  | none => exact c.execute_opens h
  | some loaded =>
    cases loaded with
    | none => exact fun w hw => (nomatch hw)
    | some state =>
      unfold opening at h
      unfold attempt resume
      dsimp only at h ⊢
      by_cases hkeys : state.extraKeys = []
      · rw [if_pos hkeys] at h
        rw [if_neg (by simp [hkeys])]
        exact c.execute_opens h
      · rw [if_pos hkeys]
        intro w hw
        rw [List.mem_singleton.mp hw]
        trivial

/-- So does one that comes to a node, before it; and its plan has no id
twice. -/
theorem atFirstNode_opens {p : Prologue} {run : AgentRun} {ids : List String}
    {target : Option String} {s : Executing} (h : c.atFirstNode p run ids target = some s) :
    (∀ w ∈ s.writes, OpensAttempt w) ∧ (c.plan.steps.map (·.nodeId)).Nodup := by
  unfold atFirstNode at h
  split at h
  next nodes target' hgraph htarget hrefusal =>
    cases h
    refine ⟨fun w hw => ?_, (StaticWorkflowGraph.orderedNodes_eq_some hgraph).2⟩
    rcases List.mem_append.mp hw with hw | hw
    · rcases List.mem_append.mp hw with hw | hw
      · cases hw
      · split at hw
        · rw [List.mem_singleton.mp hw]
          trivial
        · cases hw
    · simp only [List.mem_cons, List.not_mem_nil, or_false] at hw
      rcases hw with rfl | rfl
      · trivial
      · trivial
  · cases h

theorem opening_opens {p : Prologue} {run : AgentRun} {resumed : Option (Option CheckpointState)}
    {s : Executing} (h : c.opening p run resumed = some s) :
    (∀ w ∈ s.writes, OpensAttempt w) ∧ (c.plan.steps.map (·.nodeId)).Nodup := by
  cases resumed with
  | none => exact c.atFirstNode_opens h
  | some loaded =>
    cases loaded with
    | none => cases h
    | some state =>
      unfold opening at h
      dsimp only at h
      split at h
      · exact c.atFirstNode_opens h
      · cases h

end AttemptContext

/-! ## Every row is for a node of its plan -/

/-- The row is for a node of the plan of its run. -/
def RowOfPlan (db : Db) (step : AgentStep) : Prop :=
  ∃ plan, db.plan? step.runId = some plan ∧ (plan.steps.map (·.nodeId)).Nodup ∧
    step.stepName ∈ plan.steps.map (·.nodeId)

theorem RowOfPlan.kept {db db' : Db} {step : AgentStep} (h : RowOfPlan db step)
    (hkept : ∀ q plan, db.plan? q = some plan → db'.plan? q = some plan) : RowOfPlan db' step := by
  obtain ⟨plan, hplan, hnodup, hname⟩ := h
  exact ⟨plan, hkept _ _ hplan, hnodup, hname⟩

/-- The summaries of a step say nothing about its plan. -/
theorem RowOfPlan.wiped {db : Db} {before step : AgentStep} (h : RowOfPlan db before)
    (hwiped : before.wiped = step.wiped) : RowOfPlan db step := by
  have hrun : before.wiped.runId = step.wiped.runId := congrArg AgentStep.runId hwiped
  have hname : before.wiped.stepName = step.wiped.stepName := congrArg AgentStep.stepName hwiped
  change before.runId = step.runId at hrun
  change before.stepName = step.stepName at hname
  unfold RowOfPlan at h ⊢
  rw [hrun, hname] at h
  exact h

/-- What holds of a fleet at any time. -/
structure Orderly (f : Fleet) : Prop where
  rows : ∀ step ∈ f.sys.db.steps, RowOfPlan f.sys.db step
  workers : ∀ w ∈ f.workers, f.sys.db.plan? w.runId = some w.plan ∧
    (w.plan.steps.map (·.nodeId)).Nodup ∧ ∀ node ∈ w.left, node ∈ w.plan.steps

namespace Fleet

variable {limits : AdmissionLimits}

/-- One write of a worker. -/
theorem write_rows {sys : Sys} {place : Nat} {w : ExecWrite} {runId name : String}
    (hw : OfNode runId name w) :
    (step limits sys ⟨0, .write place w⟩).db.plans = sys.db.plans ∧
      ∀ row ∈ (step limits sys ⟨0, .write place w⟩).db.steps,
        row ∈ sys.db.steps ∨ (row.runId = runId ∧ row.stepName = name) := by
  rcases step_cases limits sys ⟨0, .write place w⟩ with ⟨db, issued, hok, hs⟩ | hs
  · rw [hs]
    obtain ⟨hplans, hsteps⟩ := write_steps hok
    refine ⟨hplans, fun row hrow => ?_⟩
    -- a write of an attempt sets no row that is there: the last two are not `OfNode`
    rcases hsteps with hsame | ⟨row', rfl, hadded⟩ | ⟨_, _, _, rfl⟩ | ⟨_, rfl⟩
    · exact Or.inl (hsame ▸ hrow)
    · rw [hadded] at hrow
      rcases List.mem_append.mp hrow with hold | hnew
      · exact Or.inl hold
      · rw [List.mem_singleton.mp hnew]
        exact Or.inr hw
    · exact hw.elim
    · exact hw.elim
  · rw [hs]
    exact ⟨rfl, fun _ h => Or.inl h⟩

/-- The writes of a worker: no plan is touched, and rows are added of one
node only. -/
theorem commitWrites_rows {place : Nat} {runId name : String} :
    ∀ (writes : List ExecWrite) (sys : Sys), (∀ w ∈ writes, OfNode runId name w) →
      (commitWrites limits place sys writes).db.plans = sys.db.plans ∧
        ∀ row ∈ (commitWrites limits place sys writes).db.steps,
          row ∈ sys.db.steps ∨ (row.runId = runId ∧ row.stepName = name)
  | [], _, _ => ⟨rfl, fun _ h => Or.inl h⟩
  | w :: writes, sys, hall => by
    obtain ⟨hplans, hrows⟩ := @write_rows limits sys place w _ _
      (hall w List.mem_cons_self)
    obtain ⟨hplans', hrows'⟩ := commitWrites_rows writes (step limits sys ⟨0, .write place w⟩)
      fun w' hw' => hall w' (List.mem_cons_of_mem _ hw')
    refine ⟨hplans'.trans hplans, fun row hrow => ?_⟩
    rcases hrows' row hrow with hold | hnew
    · exact hrows row hold
    · exact Or.inr hnew

theorem plan?_of_plans {db db' : Db} (h : db'.plans = db.plans) (q : String) :
    db'.plan? q = db.plan? q := by
  unfold Db.plan?
  rw [h]

/-- Writes that touch no step. -/
theorem commitWrites_quiet {place : Nat} {writes : List ExecWrite} (sys : Sys)
    (hall : ∀ w ∈ writes, Quiet w) :
    (commitWrites limits place sys writes).db.plans = sys.db.plans ∧
      ∀ row ∈ (commitWrites limits place sys writes).db.steps, row ∈ sys.db.steps := by
  -- a row that was added would be a row of every node
  obtain ⟨hplans, hrows⟩ := @commitWrites_rows limits place "" "a" writes sys
    fun w hw => hall w hw "" "a"
  obtain ⟨_, hrows'⟩ := @commitWrites_rows limits place "" "b" writes sys
    fun w hw => hall w hw "" "b"
  refine ⟨hplans, fun row hrow => ?_⟩
  rcases hrows row hrow with hold | ⟨_, hname⟩
  · exact hold
  · rcases hrows' row hrow with hold | ⟨_, hname'⟩
    · exact hold
    · rw [hname] at hname'
      exact absurd hname' (by decide)

end Fleet

namespace Orderly

variable {limits : AdmissionLimits} {f f' : Fleet}

/-- Nothing is added but workers, and no plan is lost. -/
theorem of_rows (h : Orderly f) (hrows : ∀ row ∈ f'.sys.db.steps, row ∈ f.sys.db.steps)
    (hkept : ∀ q plan, f.sys.db.plan? q = some plan → f'.sys.db.plan? q = some plan)
    (hworkers : ∀ w ∈ f'.workers, w ∈ f.workers ∨ (f'.sys.db.plan? w.runId = some w.plan ∧
      (w.plan.steps.map (·.nodeId)).Nodup ∧ ∀ node ∈ w.left, node ∈ w.plan.steps)) :
    Orderly f' := by
  refine ⟨fun row hrow => (h.rows row (hrows row hrow)).kept hkept, fun w hw => ?_⟩
  rcases hworkers w hw with hold | hnew
  · exact ⟨hkept _ _ (h.workers w hold).1, (h.workers w hold).2⟩
  · exact hnew

theorem step_op (h : Orderly f) {e : Event} (hop : e.op.isWrite = false) :
    Orderly { f with sys := AgentRuntime.step limits f.sys e } := by
  have hkept : StepsKept f.sys.db (AgentRuntime.step limits f.sys e).db := by
    rcases step_cases limits f.sys e with ⟨db, issued, hok, hs⟩ | hs
    · rw [hs]
      exact perform_steps hop hok
    · rw [hs]
      exact .refl _
  refine ⟨fun row hrow => ?_, fun w hw => ?_⟩
  · -- a row of a run that was purged has lost its summaries, and nothing else
    obtain ⟨before, hmem, hwiped⟩ := hkept.row_of_mem hrow
    exact ((h.rows before hmem).wiped hwiped).kept fun _ _ => hkept.plan?
  · exact ⟨hkept.plan? (h.workers w hw).1, (h.workers w hw).2⟩

theorem begins (h : Orderly f) {i : Nat} {held : Issued} {p : Prologue}
    {resumed : Option (Option CheckpointState)} {run : AgentRun} {plan : AgentPlan}
    (hplan : f.sys.db.plan? held.runId = some plan) :
    Orderly (f.begins limits i held p resumed run plan) := by
  unfold Fleet.begins
  dsimp only
  split
  next hnone =>
    obtain ⟨hplans, hrows⟩ := @Fleet.commitWrites_quiet limits i _ f.sys
      fun w hw => (AttemptContext.attempt_opens _ hnone w hw).quiet
    exact h.of_rows hrows (fun q _ hq => (Fleet.plan?_of_plans hplans q).trans hq)
      fun w hw => Or.inl hw
  next s hsome =>
    obtain ⟨hopens, hnodup⟩ := AttemptContext.opening_opens _ hsome
    obtain ⟨hplans, hrows⟩ := @Fleet.commitWrites_quiet limits i _ f.sys
      fun w hw => (hopens w hw).quiet
    refine h.of_rows hrows (fun q _ hq => (Fleet.plan?_of_plans hplans q).trans hq)
      fun w hw => ?_
    rcases List.mem_append.mp hw with hold | hnew
    · exact Or.inl hold
    · rw [List.mem_singleton.mp hnew]
      exact Or.inr ⟨(Fleet.plan?_of_plans hplans _).trans hplan, hnodup, fun _ h => h⟩

/-- A visit adds rows of the node it comes to, which is one of the plan. -/
theorem visits (h : Orderly f) {j : Nat} {w : PlanWorker} {run : AgentRun} {node : PlanNode}
    {rest : List PlanNode} (turn : NodeTurn) (hw : w ∈ f.workers)
    (hrun : f.sys.db.runs.find? w.runId = some run) (hleft : w.left = node :: rest) :
    Orderly (f.visits limits j w run node rest turn) := by
  obtain ⟨hplan, hnodup, hin⟩ := h.workers w hw
  have hid : run.runId = w.runId := Table.key_of_find? hrun
  obtain ⟨_, writes, hwrites, hall⟩ :=
    ({ plan := w.plan, executionAttempt := w.executionAttempt,
       turn := fun _ => turn : AttemptContext }).visit_writes { w.state with run := run } node
  unfold Fleet.visits
  dsimp only
  rw [hwrites, List.drop_left]
  -- the worker was at the node, and so the node is one of its plan
  obtain ⟨hplans, hrows⟩ := @Fleet.commitWrites_rows limits w.place _ _ writes f.sys hall
  have hsame : ∀ q, (Fleet.commitWrites limits w.place f.sys writes).db.plan? q
      = f.sys.db.plan? q := Fleet.plan?_of_plans hplans
  refine ⟨fun row hrow => ?_, fun w' hw' => ?_⟩
  · rcases hrows row hrow with hold | ⟨hrunId, hname⟩
    · exact (h.rows row hold).kept fun q _ hq => (hsame q).trans hq
    · refine ⟨w.plan, ?_, hnodup, ?_⟩
      · show (Fleet.commitWrites limits w.place f.sys writes).db.plan? row.runId = some w.plan
        rw [hsame, hrunId]
        exact (congrArg f.sys.db.plan? hid).trans hplan
      · rw [hname]
        exact List.mem_map.mpr ⟨node, hin node (hleft ▸ List.mem_cons_self), rfl⟩
  · show (Fleet.commitWrites limits w.place f.sys writes).db.plan? w'.runId = _ ∧ _
    rw [hsame]
    rcases List.mem_or_eq_of_mem_set hw' with hold | rfl
    · exact h.workers w' hold
    · exact ⟨hplan, hnodup, fun n hn => hin n (hleft ▸ List.mem_cons_of_mem _ hn)⟩

theorem happens (h : Orderly f) (e : Happening) : Orderly (f.happens limits e) := by
  cases e with
  | op e =>
    simp only [Fleet.happens]
    split
    · exact h
    next hop => exact h.step_op (Bool.eq_false_iff.mpr hop)
  | begins i p resumed =>
    simp only [Fleet.happens]
    split
    · exact h
    · split
      next hplan => exact h.begins hplan
      · exact h
  | visits j turn =>
    simp only [Fleet.happens]
    split
    · exact h
    next w hw =>
      split
      next hrun hleft => exact h.visits turn (List.mem_of_getElem? hw) hrun hleft
      · exact h

end Orderly

/-- **Every row is for a node of its plan**, whatever has happened. -/
theorem orderly_reach (limits : AdmissionLimits) (hs : List Happening) :
    Orderly (Fleet.reach limits hs) :=
  run_inv (I := Orderly) (fun _ e h => h.happens e) hs {}
    ⟨fun _ h => (nomatch h), fun _ h => (nomatch h)⟩

/-! ## The rows against the plan -/

/-- The nodes of the completed rows of a run, one for each row. -/
def completedNodes (db : Db) (runId : String) : List String :=
  ((stepRecords db runId).filter (fun step => decide step.Done)).map (·.stepName)

/-- How many of these rows are for a node that another one has completed. -/
def repeatedRows (db : Db) (runId : String) : Nat :=
  (completedNodes db runId).length - (completedNodes db runId).dedup.length

/-- How many nodes of the plan no row has completed. -/
def nodesLeft (db : Db) (runId : String) (plan : AgentPlan) : Nat :=
  plan.steps.countP (fun node => decide (node.nodeId ∉ completedNodes db runId))

/-- What was completed again fits into what is left of the plan, up to the
hundredth that the quotient drops. -/
def RepeatsFit (db : Db) (runId : String) : Prop :=
  ∀ plan, db.plan? runId = some plan →
    plan.steps = [] ∨
      100 * repeatedRows db runId < 100 * nodesLeft db runId plan + plan.steps.length

theorem repeatedRows_add (db : Db) (runId : String) :
    (completedNodes db runId).dedup.length + repeatedRows db runId
      = (stepRecords db runId).countP (fun step => decide step.Done) := by
  have hle : (completedNodes db runId).dedup.length ≤ (completedNodes db runId).length :=
    (List.dedup_sublist _).length_le
  have hlength : (completedNodes db runId).length
      = (stepRecords db runId).countP (fun step => decide step.Done) := by
    unfold completedNodes
    rw [List.length_map, List.countP_eq_length_filter]
  unfold repeatedRows
  omega

/-- The nodes that are completed and those that are left make up the plan. -/
theorem nodesLeft_add {db : Db} {runId : String} {plan : AgentPlan}
    (hnodup : (plan.steps.map (·.nodeId)).Nodup)
    (hin : ∀ name ∈ completedNodes db runId, name ∈ plan.steps.map (·.nodeId)) :
    (completedNodes db runId).dedup.length + nodesLeft db runId plan = plan.steps.length := by
  -- the completed nodes, once each, in the order of the plan
  have hperm : (completedNodes db runId).dedup.Perm
      ((plan.steps.map (·.nodeId)).filter fun name => decide (name ∈ completedNodes db runId)) := by
    refine (List.perm_ext_iff_of_nodup (List.nodup_dedup _) (hnodup.filter _)).mpr fun name => ?_
    rw [List.mem_dedup, List.mem_filter, decide_eq_true_iff]
    exact ⟨fun h => ⟨hin name h, h⟩, fun h => h.2⟩
  have hdone : (completedNodes db runId).dedup.length
      = plan.steps.countP fun node => decide (node.nodeId ∈ completedNodes db runId) := by
    rw [hperm.length_eq, ← List.countP_eq_length_filter, List.countP_map]
    rfl
  have hleft : nodesLeft db runId plan = plan.steps.countP fun node =>
      decide ¬decide (node.nodeId ∈ completedNodes db runId) = true := by
    unfold nodesLeft
    simp only [decide_eq_true_eq]
  rw [hdone, hleft]
  exact (List.length_eq_countP_add_countP _).symm

/-- In an orderly fleet a completed row is for a node of the plan of the run. -/
theorem Orderly.completed_mem {f : Fleet} (h : Orderly f) {runId : String} {plan : AgentPlan}
    (hplan : f.sys.db.plan? runId = some plan) :
    ∀ name ∈ completedNodes f.sys.db runId,
      (plan.steps.map (·.nodeId)).Nodup ∧ name ∈ plan.steps.map (·.nodeId) := by
  intro name hname
  obtain ⟨row, hrow, rfl⟩ := List.mem_map.mp hname
  obtain ⟨hrecord, _⟩ := List.mem_filter.mp hrow
  obtain ⟨hmem, hid⟩ := List.mem_filter.mp hrecord
  obtain ⟨plan', hplan', hnodup, hin⟩ := h.rows row hmem
  rw [of_decide_eq_true hid, hplan] at hplan'
  cases hplan'
  exact ⟨hnodup, hin⟩

/-- Without a plan the rows are counted against themselves. -/
theorem progress_of_no_plan {db : Db} {runId : String} (h : db.plan? runId = none) :
    AgentRunService.progress db runId ≤ 100 := by
  unfold AgentRunService.progress
  rw [h]
  dsimp only
  split
  · exact Nat.zero_le _
  next hsome =>
    have hle : (stepRecords db runId).countP (fun step => decide step.Done)
        ≤ (stepRecords db runId).length := List.countP_le_length
    refine Nat.div_le_of_le_mul ?_
    omega

/-- **The progress in what `get` returns is in range** exactly if what was
completed again fits into what is left of the plan. -/
theorem progress_in_range_iff (limits : AdmissionLimits) (hs : List Happening) (runId : String) :
    AgentRunService.progress (Fleet.reach limits hs).sys.db runId ≤ 100
      ↔ RepeatsFit (Fleet.reach limits hs).sys.db runId := by
  have horderly := orderly_reach limits hs
  generalize (Fleet.reach limits hs) = f at horderly ⊢
  cases hplan : f.sys.db.plan? runId with
  | none =>
    refine ⟨fun _ plan h => ?_, fun _ => progress_of_no_plan hplan⟩
    rw [hplan] at h
    cases h
  | some plan =>
    have hfit : RepeatsFit f.sys.db runId ↔ (plan.steps = [] ∨ 100 * repeatedRows f.sys.db runId
        < 100 * nodesLeft f.sys.db runId plan + plan.steps.length) := by
      unfold RepeatsFit
      rw [hplan]
      exact ⟨fun h => h plan rfl, fun h plan' heq => by cases heq; exact h⟩
    rw [hfit]
    unfold AgentRunService.progress
    rw [hplan]
    dsimp only
    by_cases hempty : plan.steps = []
    · rw [if_pos (by rw [hempty]; rfl)]
      exact ⟨fun _ => Or.inl hempty, fun _ => Nat.zero_le _⟩
    have hpos : 0 < plan.steps.length := List.length_pos_of_ne_nil hempty
    rw [if_neg (Nat.ne_of_gt hpos)]
    have hcount := repeatedRows_add f.sys.db runId
    have hquotient : ∀ completed,
        completed * 100 / plan.steps.length ≤ 100 ↔ completed * 100 < 101 * plan.steps.length :=
      fun completed => by
        rw [← Nat.lt_succ_iff, Nat.div_lt_iff_lt_mul hpos]
    rw [hquotient, or_iff_right hempty]
    -- a completed row is needed to know that the plan has no id twice
    by_cases hnone : completedNodes f.sys.db runId = []
    · -- nothing is completed, and so nothing again
      have hzero : repeatedRows f.sys.db runId = 0 := by
        unfold repeatedRows
        rw [hnone]
        rfl
      rw [hzero, hnone] at hcount
      rw [← hcount, hzero]
      simp only [List.dedup_nil, List.length_nil]
      omega
    · obtain ⟨name, hname⟩ := List.exists_mem_of_ne_nil _ hnone
      have hall := nodesLeft_add (horderly.completed_mem hplan name hname).1
        fun name' h => (horderly.completed_mem hplan name' h).2
      omega

/-- A worker completes the first of two nodes and stops; its lease runs out,
the run is pending again, and the next worker completes both. -/
def rerunNodes : List Happening :=
  claimedRun.map .op ++
  [.begins 0 {} none, .visits 0 { stepId := "step-1" },
   .op (after 91 .reapExpired), .op (after 0 (.claim "run-1" "worker-2" 90)),
   .begins 1 {} none, .visits 1 { stepId := "step-2" }, .visits 1 { stepId := "step-3" }]

/-- Three completed rows for two nodes. -/
theorem progress_beyond_range :
    ¬ (∀ (limits : AdmissionLimits) (hs : List Happening) (runId : String),
      AgentRunService.progress (Fleet.reach limits hs).sys.db runId ≤ 100) ∧
    AgentRunService.progress (Fleet.reach {} rerunNodes).sys.db "run-1" = 150 := by
  refine ⟨fun h => ?_, by decide +kernel⟩
  have hrange := h {} rerunNodes "run-1"
  revert hrange
  decide +kernel

end AgentRuntime
