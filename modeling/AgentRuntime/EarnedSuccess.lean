import AgentRuntime.ResumedOnce
import AgentRuntime.Successes
import Mathlib.Data.List.TakeWhile

/-!
# A success is earned

A run is a success if its worker has told `finish` so, and the worker says what
its attempt has returned. An attempt returns a success once it has come past
every node from the first or from the fallback node on (`GoesThrough`), and it
is past a node only if the node is completed, or may fail and comes after the
publication. Every completed node has a row: the attempt writes it before the
checkpoint, under the lease, and a lease that is held at the end was held all
the time (`holds_before`).

So every run that is a success has a row for each of its nodes, whatever
attempts, crashes and decisions there were (`success_earned`).
-/

namespace AgentRuntime

open Keyed Runs

variable {limits : AdmissionLimits} {now : Time}

/-! ## What is asked for -/

/-- An attempt may begin at the first node, or at the fallback node of the plan. -/
def AgentPlan.BeginsAt (plan : AgentPlan) (target : Option String) : Prop :=
  ∀ t ∈ target, plan.fallbackPolicy.waitingHumanFallbackNode = some t ∧
    t ∈ plan.steps.map (·.nodeId)

/-- From the first node on, or from the fallback node on, every node of the plan
is done; of a partial run those may be missing that may fail, and the document is
published. -/
def Earned (db : Db) (run : AgentRun) : Prop :=
  ∃ plan target, db.plan? run.runId = some plan ∧ plan.BeginsAt target ∧
    ∀ node ∈ fromTarget target plan.steps,
      NodeDone db run.runId node.nodeId ∨
        (run.status = .partialSucceeded ∧ node.optional = true ∧
          NodeDone db run.runId "publish_document")

namespace PlanWorker

/-- What the attempt of a worker has returned. -/
def returned (w : PlanWorker) : Option AgentRunResult :=
  if w.left = [] ∨ w.state.ended.isSome = true then
    match w.state.result with
    | .returned r => some r
    | .lost => none
  else none

end PlanWorker

/-- Who tells `finish` that a run is a success is the worker that holds the
context, and tells what its attempt has returned. -/
def Crew.Consumes (c : Crew) : CrewEvent → Prop
  | .op ⟨_, .finish i status _⟩ =>
    status.Successful →
      ∃ w ∈ c.fleet.workers, w.place = i ∧ ∃ r ∈ w.returned, r.status = status
  | _ => True

instance (c : Crew) : (e : CrewEvent) → Decidable (c.Consumes e)
  | .op ⟨_, .finish i status _⟩ =>
    inferInstanceAs (Decidable (status.Successful →
      ∃ w ∈ c.fleet.workers, w.place = i ∧ ∃ r ∈ w.returned, r.status = status))
  | .op ⟨_, .register _⟩ | .op ⟨_, .create ..⟩ | .op ⟨_, .start ..⟩ | .op ⟨_, .cancel ..⟩
  | .op ⟨_, .purge ..⟩ | .op ⟨_, .retry ..⟩ | .op ⟨_, .approve ..⟩ | .op ⟨_, .claim ..⟩
  | .op ⟨_, .heartbeat ..⟩ | .op ⟨_, .write ..⟩ | .op ⟨_, .releaseForDrain _⟩
  | .op ⟨_, .finishAfterInvalidBoundary _⟩ | .op ⟨_, .pauseForHuman ..⟩ | .op ⟨_, .reapExpired⟩
  | .op ⟨_, .repairRun ..⟩ | .op ⟨_, .repairDeadLetter _⟩ | .op ⟨_, .deliver ..⟩
  | .reads _ | .claims .. | .begins .. | .visits .. => inferInstanceAs (Decidable True)

/-! ## An attempt that goes through -/

/-- The attempt may leave the node behind. -/
def Passed (s : Executing) (node : PlanNode) : Prop :=
  node.nodeId ∈ s.completedNodeIds ∨
    (node.optional = true ∧ "publish_document" ∈ s.completedNodeIds ∧ s.degraded = true)

theorem Passed.mono {s s' : Executing} {node : PlanNode} (h : Passed s node)
    (hids : ∀ x ∈ s.completedNodeIds, x ∈ s'.completedNodeIds)
    (hdegraded : s.degraded = true → s'.degraded = true) : Passed s' node := by
  rcases h with hdone | ⟨hoptional, hpublished, hd⟩
  · exact .inl (hids _ hdone)
  · exact .inr ⟨hoptional, hids _ hpublished, hdegraded hd⟩

/-- Not a success. -/
def AttemptEnd.Fails (e : AttemptEnd) : Prop :=
  ∀ r, e = .returned r → ¬ r.status.Successful

theorem AttemptEnd.Stops.fails {e : AttemptEnd} (h : e.Stops) : e.Fails :=
  fun r hr hstatus => hstatus.elim (h r hr).1 (h r hr).2.1

theorem AttemptEnd.fails_fail (runId errorCode : String) :
    AttemptEnd.Fails (.returned (WorkflowExecutor.fail runId errorCode)) := by
  rintro r ⟨⟩ hstatus
  rcases hstatus with h | h
  · cases h
  · cases h

/-- What is said of an attempt that is past a node. -/
structure PassesNode (s : Executing) (node : PlanNode) (s' : Executing) : Prop where
  passed : Passed s' node
  ids : ∀ x ∈ s.completedNodeIds, x ∈ s'.completedNodeIds
  degraded : s.degraded = true → s'.degraded = true

theorem Executing.wait_degraded (s : Executing) (w : ProviderWait) :
    (s.wait w).degraded = s.degraded := by
  unfold Executing.wait
  dsimp only
  split
  · rfl
  · rfl

theorem Executing.waitAll_degraded (waits : List ProviderWait) :
    ∀ s : Executing, (s.waitAll waits).degraded = s.degraded := by
  induction waits with
  | nil => exact fun _ => rfl
  | cons w waits ih => exact fun s => (ih (s.wait w)).trans (s.wait_degraded w)

namespace AttemptContext

variable (c : AttemptContext) {s : Executing} {node : PlanNode}

/-- A node that is done leaves the attempt as it was, if it goes on. -/
theorem afterDone_open (s : Executing) (waitingHuman : Bool)
    (h : (c.afterDone s node waitingHuman).ended = none) :
    (c.afterDone s node waitingHuman).completedNodeIds = s.completedNodeIds ∧
      (c.afterDone s node waitingHuman).degraded = s.degraded := by
  unfold afterDone at h ⊢
  dsimp only at h ⊢
  split at h
  · cases h
  next hvalid =>
  rw [if_neg hvalid]
  split at h
  · cases h
  next hdraining =>
  rw [if_neg hdraining]
  split at h
  · split at h
    · cases h
    split at h
    · cases h
    · cases h
  next hwaiting =>
    rw [if_neg hwaiting]
    exact ⟨rfl, rfl⟩

theorem invoke_passes (h : (c.invoke s node).ended = none) :
    PassesNode s node (c.invoke s node) := by
  have hsame := s.waitAll_same (c.turn node.nodeId).waits
  have hdegraded := s.waitAll_degraded (c.turn node.nodeId).waits
  unfold invoke at h ⊢
  dsimp only at h ⊢
  split at h
  · cases h
  · cases h
  · cases h
  · cases h
  · -- the node has raised: the attempt goes on if the node may fail
    unfold raise at h ⊢
    dsimp only at h ⊢
    split at h
    next hmay =>
      rw [if_pos hmay]
      refine ⟨.inr ⟨hmay.1, hmay.2, rfl⟩, fun x hx => ?_, fun _ => rfl⟩
      exact hsame.ids.symm ▸ hx
    · cases h
  next skipped waitingHuman degraded _ =>
    unfold complete at h ⊢
    dsimp only at h ⊢
    split at h
    · cases h
    next howned =>
    rw [if_neg howned]
    split at h
    · cases h
    next hsaved =>
    rw [if_neg hsaved]
    split at h
    · cases h
    next hstored =>
    rw [if_neg hstored]
    obtain ⟨hids, hdeg⟩ := c.afterDone_open _ waitingHuman h
    refine ⟨.inl ?_, fun x hx => ?_, fun hd => ?_⟩
    · rw [hids]
      exact List.mem_insert_self
    · rw [hids]
      exact List.mem_insert_of_mem (hsame.ids.symm ▸ hx)
    · rw [hdeg]
      show ((s.waitAll _).degraded || degraded) = true
      rw [hdegraded, hd]
      rfl

theorem check_passes (h : (c.check s node).ended = none) :
    PassesNode s node (c.check s node) := by
  unfold check at h ⊢
  dsimp only at h ⊢
  split at h
  · cases h
  split at h
  · cases h
  · -- the clock says nothing about nodes
    obtain ⟨hpassed, hids, hdegraded⟩ := c.invoke_passes h
    exact ⟨hpassed, hids, hdegraded⟩

end AttemptContext

/-- How far an attempt has come over the plan: it has ended without success, it
is in front of its target, or it is past the nodes up to those that are left. -/
inductive GoesThrough (plan : AgentPlan) (left : List PlanNode) (s : Executing) : Prop
  | ended (e : AttemptEnd) (hended : s.ended = some e) (hfails : e.Fails)
  | seeks (t : String) (hopen : s.ended = none) (hbegins : plan.BeginsAt (some t))
      (hskipping : s.skipping = some t)
      (hfrom : fromTarget (some t) left = fromTarget (some t) plan.steps)
  | past (target : Option String) (gone : List PlanNode) (hopen : s.ended = none)
      (hbegins : plan.BeginsAt target) (hskipping : s.skipping = none)
      (hgone : fromTarget target plan.steps = gone ++ left) (hpassed : ∀ node ∈ gone, Passed s node)

namespace AttemptContext

variable (c : AttemptContext) {s : Executing} {node : PlanNode}

/-- An attempt begins at the first or at the fallback node, and knows what it
has resumed from. -/
theorem opening_starts {p : Prologue} {run : AgentRun} {resumed : Option (Option CheckpointState)}
    (h : c.opening p run resumed = some s) :
    s.ended = none ∧ c.plan.BeginsAt s.skipping ∧
      ∀ x ∈ s.completedNodeIds, ∃ state, resumed = some (some state) ∧ x ∈ state.completedNodeIds := by
  have hfirst : ∀ {ids : List String} {from? : Option String},
      c.atFirstNode p run ids from? = some s →
        s.ended = none ∧ c.plan.BeginsAt s.skipping ∧ s.completedNodeIds = ids.dedup := by
    intro ids from? hs
    unfold atFirstNode at hs
    split at hs
    next nodes target _ htarget _ =>
      cases hs
      refine ⟨rfl, ?_, rfl⟩
      show c.plan.BeginsAt target
      unfold fallbackTarget at htarget
      split at htarget
      · split at htarget
        · cases htarget
        · split at htarget
          next t hplan =>
            cases htarget
            intro t' ht'
            cases ht'
            exact hplan
          · cases htarget
      · cases htarget
        intro t ht
        cases ht
    · cases hs
  cases resumed with
  | none =>
    obtain ⟨hended, hbegins, hids⟩ := hfirst h
    refine ⟨hended, hbegins, fun x hx => ?_⟩
    rw [hids] at hx
    exact absurd hx List.not_mem_nil
  | some loaded =>
    cases loaded with
    | none => cases h
    | some state =>
      unfold opening at h
      dsimp only at h
      split at h
      · obtain ⟨hended, hbegins, hids⟩ := hfirst h
        refine ⟨hended, hbegins, fun x hx => ⟨state, rfl, ?_⟩⟩
        rw [hids] at hx
        exact List.mem_dedup.mp hx
      · cases h

end AttemptContext

namespace GoesThrough

variable {plan : AgentPlan} {node : PlanNode} {rest : List PlanNode} {s : Executing}

theorem opened (hopen : s.ended = none) (hbegins : plan.BeginsAt s.skipping) :
    GoesThrough plan plan.steps s := by
  cases hskipping : s.skipping with
  | none =>
    refine .past none [] hopen (fun t ht => (nomatch ht)) hskipping rfl fun _ hm => ?_
    exact absurd hm List.not_mem_nil
  | some t => exact .seeks t hopen (hskipping ▸ hbegins) hskipping rfl

/-- A node that is entered is left behind, or it ends the attempt. -/
theorem enter (c : AttemptContext) {target : Option String} {gone : List PlanNode}
    (hopen : s.ended = none) (hbegins : plan.BeginsAt target) (hskipping : s.skipping = none)
    (hgone : fromTarget target plan.steps = gone ++ node :: rest)
    (hpassed : ∀ m ∈ gone, Passed s m) : GoesThrough plan rest (c.enter s node) := by
  have hpast : ∀ s' : Executing, s'.ended = none → s'.skipping = none → PassesNode s node s' →
      GoesThrough plan rest s' := by
    intro s' hopen' hskipping' hpasses
    refine .past target (gone ++ [node]) hopen' hbegins hskipping'
      (hgone.trans (List.append_cons _ _ _)) fun m hm => ?_
    rcases List.mem_append.mp hm with hold | hnew
    · exact (hpassed m hold).mono hpasses.ids hpasses.degraded
    · rw [List.mem_singleton.mp hnew]
      exact hpasses.passed
  rcases c.enter_cases (Iff.refl (node.nodeId ∈ s.completedNodeIds)) with
    ⟨_, henter⟩ | ⟨hdone, henter⟩ | ⟨_, _, henter⟩
  · rw [henter]
    exact .ended _ rfl (AttemptEnd.fails_fail _ _)
  · rw [henter]
    exact hpast s hopen hskipping ⟨.inl hdone.1, fun _ hx => hx, fun hd => hd⟩
  rw [henter]
  rcases c.check_cases s node hopen with ⟨code, _, hfail⟩ | ⟨_, hstops | hgoes⟩
  · rw [hfail]
    exact .ended _ rfl (AttemptEnd.fails_fail _ _)
  · obtain ⟨e, hended, hstops'⟩ := hstops.ended
    exact .ended e hended hstops'.fails
  · exact hpast _ hgoes.ended (hgoes.skipping.trans hskipping) (c.check_passes hgoes.ended)

/-- A visit takes the attempt on by one node. -/
theorem visit (c : AttemptContext) (h : GoesThrough plan (node :: rest) s) :
    GoesThrough plan rest (c.visit s node) := by
  cases h with
  | ended e hended hfails =>
    unfold AttemptContext.visit
    rw [if_pos (by rw [hended]; rfl)]
    exact .ended e hended hfails
  | seeks t hopen hbegins hskipping hfrom =>
    unfold AttemptContext.visit
    rw [hopen, hskipping, if_neg (by simp)]
    dsimp only
    by_cases hnode : node.nodeId = t
    · rw [if_pos hnode]
      rw [fromTarget_cons_of_eq hnode] at hfrom
      have hpassed : ∀ m ∈ ([] : List PlanNode), Passed { s with skipping := none } m :=
        fun _ hm => absurd hm List.not_mem_nil
      exact enter c rfl hbegins rfl hfrom.symm hpassed
    · rw [if_neg hnode]
      rw [fromTarget_cons_of_ne hnode] at hfrom
      exact .seeks t hopen hbegins hskipping hfrom
  | past target gone hopen hbegins hskipping hgone hpassed =>
    rw [c.visit_open hopen hskipping]
    exact enter c hopen hbegins hskipping hgone hpassed

/-- **What an attempt returns as a success** it has come by node by node. -/
theorem earns {left : List PlanNode} (h : GoesThrough plan left s) {r : AgentRunResult}
    (hresult : s.result = .returned r) (hstatus : r.status.Successful)
    (hdone : left = [] ∨ s.ended.isSome = true) :
    ∃ target, plan.BeginsAt target ∧ ∀ node ∈ fromTarget target plan.steps,
      node.nodeId ∈ s.completedNodeIds ∨ (r.status = .partialSucceeded ∧ node.optional = true ∧
        "publish_document" ∈ s.completedNodeIds) := by
  have hleft : s.ended = none → left = [] := by
    intro hopen
    rcases hdone with hleft | hended
    · exact hleft
    · rw [hopen] at hended
      cases hended
  cases h with
  | ended e hended hfails =>
    unfold Executing.result at hresult
    rw [hended] at hresult
    exact absurd hstatus (hfails r hresult)
  | seeks t hopen hbegins hskipping hfrom =>
    -- the target is a node of the plan, and so the attempt has come to it
    obtain ⟨_, hmem⟩ := hbegins t rfl
    obtain ⟨node, hnode, hid⟩ := List.mem_map.mp hmem
    rw [hleft hopen] at hfrom
    have hall := List.dropWhile_eq_nil_iff.mp hfrom.symm node hnode
    exact absurd hid (of_decide_eq_true hall)
  | past target gone hopen hbegins hskipping hgone hpassed =>
    refine ⟨target, hbegins, fun node hnode => ?_⟩
    rw [hgone, hleft hopen, List.append_nil] at hnode
    unfold Executing.result at hresult
    rw [hopen] at hresult
    cases hresult
    rcases hpassed node hnode with hmem | ⟨hoptional, hpublished, hdegraded⟩
    · exact .inl hmem
    · exact .inr ⟨by rw [hdegraded]; rfl, hoptional, hpublished⟩

end GoesThrough

/-! ## A run of the system -/

/-- What a success has earned it keeps. -/
theorem Earned.kept {s s' : Sys} {run run' : AgentRun} (h : Earned s.db run)
    (hkept : WorkKept s s') (hid : run'.runId = run.runId) (hstatus : run'.status = run.status) :
    Earned s'.db run' := by
  obtain ⟨plan, target, hplan, hbegins, hall⟩ := h
  refine ⟨plan, target, hid ▸ hkept.plans _ _ hplan, hbegins, fun node hnode => ?_⟩
  rw [hid, hstatus]
  rcases hall node hnode with hdone | ⟨hpart, hoptional, hpublished⟩
  · exact .inl (hkept.rows _ _ hdone)
  · exact .inr ⟨hpart, hoptional, hkept.rows _ _ hpublished⟩

/-- What is known of the nodes that are completed: the checkpoints say so of
nodes with a row, and so does a worker that holds its run, and every worker has
come to where it is node by node. -/
structure Grounded (c : Crew) : Prop where
  stored : CheckpointsStored c
  checkpoints : ∀ row ∈ c.fleet.sys.db.checkpoints, ∀ x ∈ row.state.completedNodeIds,
    NodeDone c.fleet.sys.db row.runId x
  workers : ∀ w ∈ c.fleet.workers, HasRun c.fleet.sys w.place → ∀ x ∈ w.state.completedNodeIds,
    NodeDone c.fleet.sys.db w.runId x
  courses : ∀ w ∈ c.fleet.workers, GoesThrough w.plan w.left w.state

namespace Grounded

variable {c c' : Crew}

/-- A worker that holds its run after a step has held it before. -/
theorem worker_kept (h : Grounded c) (hkept : WorkKept c.fleet.sys c'.fleet.sys) {w : PlanWorker}
    (hw : w ∈ c.fleet.workers) (hhas : HasRun c'.fleet.sys w.place) {x : String}
    (hx : x ∈ w.state.completedNodeIds) : NodeDone c'.fleet.sys.db w.runId x := by
  obtain ⟨held, hheld, _⟩ := h.stored.manned.contexts w hw
  have hlt := (List.getElem?_eq_some_iff.mp hheld).1
  have hhad := hkept.holds h.stored.manned.numbers w.place hlt hhas
  exact hkept.rows _ _ (h.workers w hw hhad x hx)

theorem checkpoint_kept (h : Grounded c) (hkept : WorkKept c.fleet.sys c'.fleet.sys)
    {row : AgentCheckpoint} (hrow : row ∈ c.fleet.sys.db.checkpoints) {x : String}
    (hx : x ∈ row.state.completedNodeIds) : NodeDone c'.fleet.sys.db row.runId x :=
  hkept.rows _ _ (h.checkpoints row hrow x hx)

/-- A worker that begins knows at most what is in a checkpoint. -/
theorem begun (h : Grounded c) {i : Nat} {p : Prologue} {w : PlanWorker} (hbegun : Begun c i p w) :
    GoesThrough w.plan w.left w.state ∧
      ∀ x ∈ w.state.completedNodeIds, NodeDone c.fleet.sys.db w.runId x := by
  obtain ⟨held, status, run, _, _, _, _, hrunId, _, hleft, hopening⟩ := hbegun.started
  obtain ⟨hopen, hbegins, hids⟩ := AttemptContext.opening_starts _ hopening
  refine ⟨hleft ▸ GoesThrough.opened hopen hbegins, fun x hx => ?_⟩
  obtain ⟨state, hresumed, hmem⟩ := hids x hx
  unfold Crew.startsFrom at hresumed
  split at hresumed
  · obtain ⟨row, hrow, rfl⟩ := Remembered.loadLatest_eq_some (Option.some.inj hresumed)
    rw [h.stored.latest_eq] at hrow
    obtain ⟨hrow', hid⟩ := List.mem_filter.mp (List.mem_of_getLast? hrow)
    rw [hrunId, ← of_decide_eq_true hid]
    exact h.checkpoints row hrow' x hmem
  · cases hresumed

theorem visits (h : Grounded c) (hstored : CheckpointsStored c') {j : Nat} {w : PlanWorker}
    {run : AgentRun} {node : PlanNode} {rest : List PlanNode} {turn : NodeTurn}
    (hw : c.fleet.workers[j]? = some w) (hrun : c.fleet.sys.db.runs.find? w.runId = some run)
    (hleft : w.left = node :: rest)
    (hfleet : c'.fleet = c.fleet.visits limits j w run node rest turn) : Grounded c' := by
  have hmem : w ∈ c.fleet.workers := List.mem_of_getElem? hw
  obtain ⟨hkept, hdone⟩ := @Manned.visits_done limits _ h.stored.manned _ _ _ node rest turn hw hrun
  have hsaves := @Manned.visits_saves limits _ h.stored.manned _ _ _ node rest turn hw hrun
    (h.stored.fresh hmem)
  rw [← hfleet] at hkept hdone hsaves
  have hworkers : c'.fleet.workers = c.fleet.workers.set j (w.visited run node rest turn) := by
    rw [hfleet]
    rfl
  refine ⟨hstored, fun row hrow x hx => ?_, fun other hother hhas x hx => ?_, fun other hother => ?_⟩
  · rcases hsaves with hsame | ⟨new, hnew⟩
    · exact h.checkpoint_kept hkept (hsame ▸ hrow) hx
    · -- what the new checkpoint says was done before, or in this visit
      rw [hnew.checkpoints] at hrow
      rcases List.mem_append.mp hrow with hold | hlast
      · exact h.checkpoint_kept hkept hold hx
      · rw [List.mem_singleton.mp hlast] at hx ⊢
        rw [hnew.ids] at hx
        rw [hnew.runId]
        rcases hnew.rows x hx with hbefore | hrow'
        · exact hkept.rows _ _ (h.workers w hmem hnew.holds x hbefore)
        · exact hrow'
  · rw [hworkers] at hother
    rcases List.mem_or_eq_of_mem_set hother with hold | rfl
    · exact h.worker_kept hkept hold hhas hx
    · rcases hdone hhas x hx with hbefore | hrow
      · exact h.worker_kept hkept hmem hhas hbefore
      · exact hrow
  · rw [hworkers] at hother
    rcases List.mem_or_eq_of_mem_set hother with hold | rfl
    · exact h.courses other hold
    · have hcourse : GoesThrough w.plan (node :: rest) { w.state with run := run } := by
        -- the row of the run does not matter to the course
        cases hleft ▸ h.courses w hmem with
        | ended e hended hfails => exact .ended e hended hfails
        | seeks t hopen hbegins hskipping hfrom => exact .seeks t hopen hbegins hskipping hfrom
        | past target gone hopen hbegins hskipping hgone hpassed =>
          exact .past target gone hopen hbegins hskipping hgone hpassed
      exact hcourse.visit (w.meets turn)

theorem happens (h : Grounded c) (e : CrewEvent) : Grounded (c.happens limits e) := by
  have hstored : CheckpointsStored (c.happens limits e) := h.stored.happens e
  have hstep := c.happens_step limits e
  generalize c.happens limits e = c' at hstep hstored ⊢
  have hquiet : SysKept c.fleet.sys c'.fleet.sys → ∀ row ∈ c'.fleet.sys.db.checkpoints,
      ∀ x ∈ row.state.completedNodeIds, NodeDone c'.fleet.sys.db row.runId x := by
    intro hkept row hrow x hx
    obtain ⟨keep, hfilter⟩ := hkept.checkpoints
    rw [hfilter] at hrow
    exact h.checkpoint_kept hkept.toWorkKept (List.mem_filter.mp hrow).1 hx
  cases hstep with
  | quiet _ _ hworkers _ hkept _ =>
    refine ⟨hstored, hquiet hkept, fun w hw hhas x hx => ?_, fun w hw => ?_⟩
    · exact h.worker_kept hkept.toWorkKept (hworkers ▸ hw) hhas hx
    · exact h.courses w (hworkers ▸ hw)
  | begins i p _ w hbegun hworkers _ hkept _ =>
    obtain ⟨hcourse, hknown⟩ := h.begun hbegun
    refine ⟨hstored, hquiet hkept, fun other hother hhas x hx => ?_, fun other hother => ?_⟩
    · rw [hworkers] at hother
      rcases List.mem_append.mp hother with hold | hnew
      · exact h.worker_kept hkept.toWorkKept hold hhas hx
      · rw [List.mem_singleton.mp hnew] at hx ⊢
        exact hkept.rows _ _ (hknown x hx)
    · rw [hworkers] at hother
      rcases List.mem_append.mp hother with hold | hnew
      · exact h.courses other hold
      · rw [List.mem_singleton.mp hnew]
        exact hcourse
  | visits j turn _ w run node rest hw hrun hleft hfleet _ _ =>
    exact h.visits hstored hw hrun hleft hfleet

end Grounded

/-- An operation that is no report of a worker makes no run a success. -/
theorem step_noneSucceeds (limits : AdmissionLimits) (s : Sys) {e : Event}
    (hop : e.op.isFinish = false) : NoneSucceeds s.db (step limits s e).db := by
  rcases step_cases limits s e with ⟨db, issued, hok, hs⟩ | hs
  · rw [hs]
    exact perform_noneSucceeds hop hok
  · rw [hs]
    exact .refl _

theorem commitWrites_noneSucceeds (place : Nat) (sys : Sys) (writes : List ExecWrite) :
    NoneSucceeds sys.db (Fleet.commitWrites limits place sys writes).db := by
  rw [Fleet.commitWrites_run]
  exact run_mono (R := fun s s' : Sys => NoneSucceeds s.db s'.db) (fun s => .refl s.db)
    (fun h h' => h.trans h') (fun s w => step_noneSucceeds limits s rfl) writes sys

theorem visits_noneSucceeds (f : Fleet) (j : Nat) (w : PlanWorker) (run : AgentRun)
    (node : PlanNode) (rest : List PlanNode) (turn : NodeTurn) :
    NoneSucceeds f.sys.db (f.visits limits j w run node rest turn).sys.db :=
  commitWrites_noneSucceeds _ _ _

theorem begins_noneSucceeds (f : Fleet) (i : Nat) (held : Issued) (p : Prologue)
    (resumed : Option (Option CheckpointState)) (run : AgentRun) (plan : AgentPlan) :
    NoneSucceeds f.sys.db (f.begins limits i held p resumed run plan).sys.db := by
  unfold Fleet.begins
  dsimp only
  split
  · exact commitWrites_noneSucceeds _ _ _
  · exact commitWrites_noneSucceeds _ _ _

theorem Fleet.happens_noneSucceeds (limits : AdmissionLimits) (f : Fleet) (h : Happening)
    (hfinish : ∀ e, h = .op e → e.op.isFinish = false) :
    NoneSucceeds f.sys.db (f.happens limits h).sys.db := by
  cases h with
  | op e =>
    unfold Fleet.happens
    dsimp only
    by_cases hwrite : e.op.isWrite = true
    · rw [if_pos hwrite]
      exact .refl _
    · rw [if_neg hwrite]
      exact step_noneSucceeds limits f.sys (hfinish e rfl)
  | begins i p resumed =>
    unfold Fleet.happens
    dsimp only
    split
    · exact .refl _
    · split
      · exact begins_noneSucceeds _ _ _ _ _ _ _
      · exact .refl _
  | visits j turn =>
    unfold Fleet.happens
    dsimp only
    split
    · exact .refl _
    · split
      · exact visits_noneSucceeds _ _ _ _ _ _ _
      · exact .refl _

/-- Of the events only a report makes a run a success. -/
theorem Crew.happens_noneSucceeds (limits : AdmissionLimits) (c : Crew) (e : CrewEvent) :
    NoneSucceeds c.fleet.sys.db (c.happens limits e).fleet.sys.db ∨
    ∃ t i status errorCode, e = .op ⟨t, .finish i status errorCode⟩ ∧
      (c.happens limits e).fleet.sys
        = step limits c.fleet.sys ⟨t, .finish i status errorCode⟩ := by
  cases e with
  | op e =>
    obtain ⟨t, op⟩ := e
    cases hop : op.isFinish with
    | true =>
      cases op with
      | finish i status errorCode => exact .inr ⟨t, i, status, errorCode, rfl, rfl⟩
      | _ => cases hop
    | false =>
      left
      simp only [happens]
      split
      · exact .refl _
      · refine c.fleet.happens_noneSucceeds limits (.op ⟨t, op⟩) fun e he => ?_
        cases he
        exact hop
  | reads runId => exact .inl (.refl _)
  | claims k owner elapsed leaseSeconds =>
    left
    simp only [happens]
    split
    · exact .refl _
    next runId status _ =>
      refine c.fleet.happens_noneSucceeds limits (.op ⟨elapsed, .claim runId owner leaseSeconds⟩)
        fun e he => ?_
      cases he
      rfl
  | begins place p =>
    left
    simp only [happens]
    split
    · split
      · exact .refl _
      · refine c.fleet.happens_noneSucceeds limits (.begins place _ _) fun e he => ?_
        cases he
    · exact .refl _
  | visits j turn =>
    left
    simp only [happens]
    split
    · exact .refl _
    · refine c.fleet.happens_noneSucceeds limits (.visits j turn) fun e he => ?_
      cases he

/-- Every event keeps the work. -/
theorem Crew.happens_kept {c : Crew} (h : Manned c.fleet) (e : CrewEvent) :
    WorkKept c.fleet.sys (c.happens limits e).fleet.sys := by
  have hstep := c.happens_step limits e
  generalize c.happens limits e = c' at hstep ⊢
  cases hstep with
  | quiet _ _ _ _ hkept _ => exact hkept.toWorkKept
  | begins _ _ _ _ _ _ _ hkept _ => exact hkept.toWorkKept
  | visits j turn _ w run node rest hw hrun _ hfleet _ _ =>
    rw [hfleet]
    exact (h.visits_done node rest turn hw hrun).1

/-- Every run that is a success has earned it. -/
def SuccessEarned (db : Db) : Prop :=
  ∀ q run, db.runs.find? q = some run → run.status.Successful → Earned db run

/-- A report of what an attempt has returned is earned. -/
theorem finish_earned {c : Crew} (h : Grounded c) (hearned : SuccessEarned c.fleet.sys.db) {t : Time}
    {i : Nat} {status : RunStatus} {errorCode : Option String}
    (hconsumes : c.Consumes (.op ⟨t, .finish i status errorCode⟩)) :
    SuccessEarned (step limits c.fleet.sys ⟨t, .finish i status errorCode⟩).db := by
  have hkept : WorkKept c.fleet.sys (step limits c.fleet.sys ⟨t, .finish i status errorCode⟩) :=
    workKept_step limits c.fleet.sys fun j w hw => (nomatch hw)
  have hold : ∀ {q : String} {run run' : AgentRun}, c.fleet.sys.db.runs.find? q = some run →
      run'.runId = run.runId → run'.status = run.status → run'.status.Successful →
      Earned (step limits c.fleet.sys ⟨t, .finish i status errorCode⟩).db run' :=
    fun hfind hid hstatus hs => (hearned _ _ hfind (hstatus ▸ hs)).kept hkept hid hstatus
  intro q run hfind hs
  have hrunId : run.runId = q := Table.key_of_find? hfind
  rcases step_cases limits c.fleet.sys ⟨t, .finish i status errorCode⟩ with
    ⟨db, issued, hok, hs'⟩ | hs'
  · have hfind' : db.runs.find? q = some run := by
      rw [hs'] at hfind
      exact hfind
    rcases finish_succeeds hok with hnone | ⟨held, before, after, hheld, hbefore, howned, hstatus,
      hid, hrows⟩
    · obtain ⟨old, hold', hsame⟩ := hnone q run hfind' hs
      exact hold hold' (hrunId.trans (Table.key_of_find? hold').symm) hsame.symm hs
    · rcases hrows q run hfind' with rfl | hsame
      · -- the worker that reports holds its run, and so its completed nodes have rows
        rw [hstatus] at hs
        obtain ⟨w, hw, hplace, r, hr, hrstatus⟩ := hconsumes hs
        obtain ⟨held', hheld', hid', _⟩ := h.stored.manned.contexts w hw
        rw [hplace, hheld] at hheld'
        cases hheld'
        have hrunId' : run.runId = w.runId := by
          rw [hid, Table.key_of_find? hbefore, hid']
        have hhas : HasRun c.fleet.sys w.place := by
          refine ⟨held, before, by rw [hplace]; exact hheld, hbefore, howned, ?_⟩
          have hrow := h.stored.manned.numbers.rows _ _ hbefore
          have hctx := h.stored.manned.numbers.contexts held (List.mem_of_getElem? hheld)
          have htoken := howned.2.2
          omega
        obtain ⟨hdone, hresult⟩ : (w.left = [] ∨ w.state.ended.isSome = true) ∧
            w.state.result = .returned r := by
          unfold PlanWorker.returned at hr
          split at hr
          next hdone =>
            split at hr
            next r' hr' =>
              cases hr
              exact ⟨hdone, hr'⟩
            · cases hr
          · cases hr
        obtain ⟨target, hbegins, hall⟩ := (h.courses w hw).earns hresult (hrstatus ▸ hs) hdone
        have hrows' : ∀ x ∈ w.state.completedNodeIds,
            NodeDone (step limits c.fleet.sys ⟨t, .finish i status errorCode⟩).db run.runId x :=
          fun x hx => hkept.rows _ _ (hrunId' ▸ h.workers w hw hhas x hx)
        refine ⟨w.plan, target, hkept.plans _ _ (hrunId' ▸ (h.stored.orderly.workers w hw).1),
          hbegins, fun node hnode => ?_⟩
        rcases hall node hnode with hmem | ⟨hpart, hoptional, hpublished⟩
        · exact .inl (hrows' _ hmem)
        · exact .inr ⟨hstatus.trans (hrstatus.symm.trans hpart), hoptional, hrows' _ hpublished⟩
      · exact hold hsame rfl rfl hs
  · rw [hs'] at hfind
    exact hold hfind rfl rfl hs

/-- **A success is earned.** If workers report what their attempts have returned,
a run that has succeeded has a row that is done for every node of its plan, from
the first or from the fallback node on; and a partial run for all of them but
those that may fail, and its document is published. -/
theorem success_earned (limits : AdmissionLimits) (es : List CrewEvent)
    (h : Along (Crew.happens limits) Crew.Consumes {} es) :
    SuccessEarned (Crew.reach limits es).fleet.sys.db := by
  have hinit : Grounded {} ∧ SuccessEarned ({} : Crew).fleet.sys.db :=
    ⟨⟨.init, fun _ hrow => (nomatch hrow), fun _ hw => (nomatch hw), fun _ hw => (nomatch hw)⟩,
      fun q run hfind => by cases hfind⟩
  refine (along_inv (I := fun c : Crew => Grounded c ∧ SuccessEarned c.fleet.sys.db)
    (fun c e hI hconsumes => ⟨hI.1.happens e, ?_⟩) es {} hinit h).2
  rcases c.happens_noneSucceeds limits e with hnone | ⟨t, i, status, errorCode, rfl, hsys⟩
  · intro q run hfind hs
    obtain ⟨old, hold, hstatus⟩ := hnone q run hfind hs
    have hid : run.runId = old.runId :=
      (Table.key_of_find? hfind).trans (Table.key_of_find? hold).symm
    exact (hI.2 q old hold (hstatus ▸ hs)).kept (c.happens_kept hI.1.stored.manned e) hid hstatus.symm
  · rw [hsys]
    exact finish_earned hI.1 hI.2 hconsumes

/-- The first worker dies behind the first node, the second one goes through the
plan, and reports what it has returned. -/
def reportedAttempts : List CrewEvent :=
  firstAttempt { stepId := "step-1" } ++ [.op (after 91 .reapExpired)] ++ secondAttempt ++
    [.op (after 1 (.finish 1 .succeeded none))]

/-- Its success is earned. -/
theorem reported_success_earned :
    (Crew.reach {} reportedAttempts).fleet.sys.db.runs.rows.map (·.status) = [.succeeded] ∧
      SuccessEarned (Crew.reach {} reportedAttempts).fleet.sys.db :=
  ⟨by decide +kernel, success_earned {} reportedAttempts (by decide +kernel)⟩

-- a report of the first worker, which comes too late, changes nothing
example : (Crew.reach {} (firstAttempt { stepId := "step-1" } ++ [.op (after 91 .reapExpired),
    .op (after 1 (.finish 0 .succeeded none))])).fleet.sys.db.runs.rows.map (·.status)
      = [.pending] := by
  decide +kernel

end AgentRuntime
