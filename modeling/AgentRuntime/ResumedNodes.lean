import AgentRuntime.Executor
import Mathlib.Data.List.Dedup

/-!
# The nodes an attempt runs

Which nodes of a plan are given to their runner. A visit passes a node over,
stops at it or goes on past it (`check_cases`, `visit_cases`); the completed
set only grows by nodes that have been visited, and no node is visited twice,
so that every visit decides by the checkpoint (`visits_track`).

`resume_invokes`: up to the node that ends it, a resumed attempt runs the
nodes at or after its target, in the order of the plan, but for those that
are completed and not safe to run again; and it runs nothing past a completed
node that does not say whether it is.
-/

namespace AgentRuntime

open Keyed Runs WorkflowExecutor

/-! ## What the statements of a visit leave as it is -/

/-- Nothing has changed in the course of the attempt. -/
structure SameCourse (s s' : Executing) : Prop where
  ended : s'.ended = s.ended
  endedAt : s'.endedAt = s.endedAt
  skipping : s'.skipping = s.skipping
  invoked : s'.invoked = s.invoked
  ids : s'.completedNodeIds = s.completedNodeIds
  steps : s'.completedSteps = s.completedSteps
  runId : s'.run.runId = s.run.runId
  policy : s'.run.executionPolicy = s.run.executionPolicy

theorem SameCourse.refl (s : Executing) : SameCourse s s :=
  ⟨rfl, rfl, rfl, rfl, rfl, rfl, rfl, rfl⟩

theorem SameCourse.trans {s s' s'' : Executing} (h : SameCourse s s') (h' : SameCourse s' s'') :
    SameCourse s s'' :=
  ⟨h'.ended.trans h.ended, h'.endedAt.trans h.endedAt, h'.skipping.trans h.skipping,
    h'.invoked.trans h.invoked, h'.ids.trans h.ids, h'.steps.trans h.steps,
    h'.runId.trans h.runId, h'.policy.trans h.policy⟩

theorem Executing.wait_same (s : Executing) (w : ProviderWait) : SameCourse s (s.wait w) := by
  unfold Executing.wait
  dsimp only
  split
  · exact ⟨rfl, rfl, rfl, rfl, rfl, rfl, rfl, rfl⟩
  · exact ⟨rfl, rfl, rfl, rfl, rfl, rfl, rfl, rfl⟩

theorem Executing.waitAll_same (waits : List ProviderWait) :
    ∀ s : Executing, SameCourse s (s.waitAll waits) := by
  induction waits with
  | nil => exact SameCourse.refl
  | cons w waits ih => exact fun s => (s.wait_same w).trans (ih (s.wait w))

/-! ## One visit -/

namespace AttemptEnd

/-- Not a success, and not the end of the step budget. -/
def Stops (e : AttemptEnd) : Prop :=
  ∀ r, e = .returned r → r.status ≠ .succeeded ∧ r.status ≠ .partialSucceeded ∧
    r.errorCode ≠ some "STEP_LIMIT_EXCEEDED"

theorem stops_fail {errorCode : String} (runId : String) (h : errorCode ≠ "STEP_LIMIT_EXCEEDED") :
    Stops (.returned (fail runId errorCode)) := by
  rintro r ⟨⟩
  simpa [fail] using h

theorem stops_draining (runId : String) : Stops (.returned (drainingResult runId)) := by
  rintro r ⟨⟩
  simp [drainingResult]

theorem stops_cancelled {errorCode : String} (runId : String)
    (h : errorCode ≠ "STEP_LIMIT_EXCEEDED") : Stops (.returned (cancelled runId errorCode)) := by
  rintro r ⟨⟩
  simpa [cancelled] using h

theorem stops_waiting (runId : String) :
    Stops (.returned { runId := runId, status := .waitingHuman }) := by
  rintro r ⟨⟩
  simp

theorem stops_lost : Stops .lost := by
  rintro r ⟨⟩

theorem stops_loop (runId : String) (reason : LoopStop) :
    Stops (.returned (reason.result runId)) := by
  cases reason with
  | cancelRequested => exact stops_cancelled runId (by decide)
  | authorizationChanged => exact stops_cancelled runId (by decide)
  | packageRevoked => exact stops_cancelled runId (by decide)
  | draining => exact stops_draining runId
  | _ => exact stops_fail runId (by decide)

end AttemptEnd

/-- The attempt ends at the node, whether or not it has come to the runner. -/
structure StopsAt (s : Executing) (node : PlanNode) (s' : Executing) : Prop where
  ended : ∃ e : AttemptEnd, s'.ended = some e ∧ e.Stops
  endedAt : s'.endedAt = some node.nodeId
  invoked : s'.invoked = s.invoked ∨ s'.invoked = s.invoked ++ [node.nodeId]

/-- The node has run, and the attempt goes on: the node is done, or it has
failed and is passed over. -/
structure GoesPast (s : Executing) (node : PlanNode) (s' : Executing) : Prop where
  ended : s'.ended = none
  endedAt : s'.endedAt = s.endedAt
  skipping : s'.skipping = s.skipping
  invoked : s'.invoked = s.invoked ++ [node.nodeId]
  runId : s'.run.runId = s.run.runId
  policy : s'.run.executionPolicy = s.run.executionPolicy
  progress : (s'.completedNodeIds = s.completedNodeIds ∧ s'.completedSteps = s.completedSteps) ∨
    (s'.completedNodeIds = s.completedNodeIds.insert node.nodeId ∧
      s'.completedSteps = s.completedSteps + 1)

/-- Of the other nodes the completed set knows what it knew. -/
theorem GoesPast.knows {completed : List String} {nodes : List PlanNode} {node : PlanNode}
    {s s' : Executing} (h : GoesPast s node s') (hnew : node.nodeId ∉ nodes.map (·.nodeId))
    (hknown : ∀ m ∈ nodes, m.nodeId ∈ s.completedNodeIds ↔ m.nodeId ∈ completed) :
    ∀ m ∈ nodes, m.nodeId ∈ s'.completedNodeIds ↔ m.nodeId ∈ completed := by
  intro m hm
  rw [← hknown m hm]
  rcases h.progress with ⟨hids, _⟩ | ⟨hids, _⟩
  · rw [hids]
  · rw [hids, List.mem_insert_iff]
    refine or_iff_right fun heq => hnew ?_
    exact List.mem_map.mpr ⟨m, hm, heq⟩

namespace AttemptContext

variable (c : AttemptContext) {s : Executing} {node : PlanNode}

/-- A refusal of the checks. -/
theorem stops_refusal {checks : NodeChecks} {runId : String} {result : AgentRunResult}
    {writes : List ExecWrite} (h : checks.refusal runId = some (result, writes)) :
    AttemptEnd.Stops (.returned result) := by
  unfold NodeChecks.refusal at h
  split at h
  · cases h
    exact AttemptEnd.stops_fail runId (by decide)
  split at h
  · cases h
    exact AttemptEnd.stops_cancelled runId (by decide)
  split at h
  · cases h
    exact AttemptEnd.stops_cancelled runId (by decide)
  split at h
  · cases h
    exact AttemptEnd.stops_draining runId
  split at h
  · cases h
    exact AttemptEnd.stops_fail runId (by decide)
  split at h
  · cases h
    exact AttemptEnd.stops_fail runId (by decide)
  · cases h

/-- What follows a node that is done ends the attempt there, or nothing
changes in its course. -/
theorem afterDone_cases (s : Executing) (node : PlanNode) (waitingHuman : Bool) :
    ((∃ e : AttemptEnd, (c.afterDone s node waitingHuman).ended = some e ∧ e.Stops) ∧
      (c.afterDone s node waitingHuman).endedAt = some node.nodeId ∧
      (c.afterDone s node waitingHuman).invoked = s.invoked) ∨
    SameCourse s (c.afterDone s node waitingHuman) := by
  unfold afterDone
  dsimp only
  split
  · exact Or.inl ⟨⟨_, rfl, AttemptEnd.stops_fail _ (by decide)⟩, rfl, rfl⟩
  split
  · exact Or.inl ⟨⟨_, rfl, AttemptEnd.stops_draining _⟩, rfl, rfl⟩
  split
  · split
    · exact Or.inl ⟨⟨_, rfl, AttemptEnd.stops_fail _ (by decide)⟩, rfl, rfl⟩
    split
    · exact Or.inl ⟨⟨_, rfl, AttemptEnd.stops_fail _ (by decide)⟩, rfl, rfl⟩
    · exact Or.inl ⟨⟨_, rfl, AttemptEnd.stops_waiting _⟩, rfl, rfl⟩
  · exact Or.inr ⟨rfl, rfl, rfl, rfl, rfl, rfl, rfl, rfl⟩

/-- The node has been given to its runner. -/
theorem invoke_cases (s : Executing) (node : PlanNode) (hopen : s.ended = none) :
    StopsAt s node (c.invoke s node) ∨ GoesPast s node (c.invoke s node) := by
  have hsame := s.waitAll_same (c.turn node.nodeId).waits
  unfold invoke
  dsimp only
  split
  · exact Or.inl ⟨⟨_, rfl, AttemptEnd.stops_loop _ _⟩, rfl, Or.inl rfl⟩
  · exact Or.inl ⟨⟨_, rfl, AttemptEnd.stops_loop _ _⟩, rfl, Or.inr rfl⟩
  · exact Or.inl ⟨⟨_, rfl, AttemptEnd.stops_lost⟩, rfl, Or.inr rfl⟩
  · exact Or.inl ⟨⟨_, rfl, AttemptEnd.stops_fail _ (by decide)⟩, rfl, Or.inr rfl⟩
  · unfold raise
    dsimp only
    split
    · exact Or.inr ⟨hsame.ended.trans hopen, hsame.endedAt, hsame.skipping, rfl, hsame.runId,
        hsame.policy, Or.inl ⟨hsame.ids, hsame.steps⟩⟩
    · exact Or.inl ⟨⟨_, rfl, AttemptEnd.stops_fail _ (by decide)⟩, rfl, Or.inr rfl⟩
  next skipped waitingHuman degraded _ =>
    unfold complete
    dsimp only
    split
    · exact Or.inl ⟨⟨_, rfl, AttemptEnd.stops_fail _ (by decide)⟩, rfl, Or.inr rfl⟩
    split
    · exact Or.inl ⟨⟨_, rfl, AttemptEnd.stops_fail _ (by decide)⟩, rfl, Or.inr rfl⟩
    split
    · exact Or.inl ⟨⟨_, rfl, AttemptEnd.stops_lost⟩, rfl, Or.inr rfl⟩
    · rcases c.afterDone_cases (c.markDone (s.handOver node (c.turn node.nodeId).waits) node
        s.run.activeElapsedMs skipped degraded) node waitingHuman with
        ⟨hended, hat, hinvoked⟩ | hafter
      · exact Or.inl ⟨hended, hat, Or.inr hinvoked⟩
      · refine Or.inr ⟨hafter.ended.trans (hsame.ended.trans hopen),
          hafter.endedAt.trans hsame.endedAt, hafter.skipping.trans hsame.skipping,
          hafter.invoked, hafter.runId.trans hsame.runId, hafter.policy.trans hsame.policy,
          Or.inr ⟨hafter.ids.trans ?_, hafter.steps.trans ?_⟩⟩
        · exact congrArg (List.insert node.nodeId) hsame.ids
        · exact congrArg (· + 1) hsame.steps

/-- What the policy is asked before a node. -/
def asks (s : Executing) (node : PlanNode) : Except String Unit :=
  assertCanContinue s.run {
    steps := s.completedSteps + 1
    activeElapsedMs := elapsedMs s.activeStartedAt (s.clock + (c.turn node.nodeId).toCheck) }

/-- A node that is to run: the policy stops the attempt, something else does,
or the attempt goes on. -/
theorem check_cases (s : Executing) (node : PlanNode) (hopen : s.ended = none) :
    (∃ code, c.asks s node = .error code ∧ c.check s node
      = ({ s with clock := s.clock + (c.turn node.nodeId).toCheck } : Executing).failAt node code) ∨
    (c.asks s node = .ok () ∧
      (StopsAt s node (c.check s node) ∨ GoesPast s node (c.check s node))) := by
  unfold check
  dsimp only
  cases hasks : c.asks s node with
  | error code =>
    refine Or.inl ⟨code, rfl, ?_⟩
    unfold asks at hasks
    rw [hasks]
  | ok u =>
    refine Or.inr ⟨rfl, ?_⟩
    unfold asks at hasks
    rw [hasks]
    dsimp only
    split
    next result writes hrefusal =>
      exact Or.inl ⟨⟨_, rfl, stops_refusal hrefusal⟩, rfl, Or.inl rfl⟩
    · rcases c.invoke_cases { s with clock := s.clock + (c.turn node.nodeId).toCheck } node hopen
        with hstops | hgoes
      · exact Or.inl ⟨hstops.ended, hstops.endedAt, hstops.invoked⟩
      · exact Or.inr ⟨hgoes.ended, hgoes.endedAt, hgoes.skipping, hgoes.invoked, hgoes.runId,
          hgoes.policy, hgoes.progress⟩

end AttemptContext

/-! ## The nodes of a plan -/

/-- The node is completed and declared not safe to run again. -/
def StaysDone (completed : List String) (node : PlanNode) : Prop :=
  node.nodeId ∈ completed ∧ node.safeToRerun = some false

/-- The node is completed and does not say whether it may run again. -/
def Legacy (completed : List String) (node : PlanNode) : Prop :=
  node.nodeId ∈ completed ∧ node.safeToRerun = none

instance (completed : List String) : DecidablePred (StaysDone completed) := by
  intro node; unfold StaysDone; infer_instance

instance (completed : List String) : DecidablePred (Legacy completed) := by
  intro node; unfold Legacy; infer_instance

/-- The nodes at or after the target. -/
def fromTarget (target : Option String) (nodes : List PlanNode) : List PlanNode :=
  match target with
  | none => nodes
  | some target => nodes.dropWhile (fun node => decide (node.nodeId ≠ target))

theorem fromTarget_cons_of_ne {t : String} {node : PlanNode} {nodes : List PlanNode}
    (h : node.nodeId ≠ t) : fromTarget (some t) (node :: nodes) = fromTarget (some t) nodes := by
  simp [fromTarget, h]

theorem fromTarget_cons_of_eq {t : String} {node : PlanNode} {nodes : List PlanNode}
    (h : node.nodeId = t) : fromTarget (some t) (node :: nodes) = node :: nodes := by
  simp [fromTarget, h]

/-- The ids of the nodes that are not done for good. -/
def outstanding (completed : List String) (nodes : List PlanNode) : List String :=
  (nodes.filter (fun node => decide (¬ StaysDone completed node))).map (·.nodeId)

variable {completed : List String} {node : PlanNode} {nodes : List PlanNode}

theorem StaysDone.not_legacy (h : StaysDone completed node) : ¬ Legacy completed node := by
  rintro ⟨_, hnone⟩
  rw [h.2] at hnone
  cases hnone

theorem outstanding_cons_of_done (h : StaysDone completed node) :
    outstanding completed (node :: nodes) = outstanding completed nodes := by
  simp [outstanding, h]

theorem outstanding_cons_of_not (h : ¬ StaysDone completed node) :
    outstanding completed (node :: nodes) = node.nodeId :: outstanding completed nodes := by
  simp [outstanding, h]

/-- Which nodes have been run when the attempt has come to the end of
`nodes`, or to the node it ends at: all that are not done for good, in their
order. -/
inductive Tracks (completed : List String) (s : Executing) :
    List PlanNode → Executing → Prop
  | finished {nodes : List PlanNode} {s' : Executing} (hended : s'.ended = none)
      (hat : s'.endedAt = s.endedAt) (hlegacy : ∀ node ∈ nodes, ¬ Legacy completed node)
      (hinvoked : s'.invoked = s.invoked ++ outstanding completed nodes) : Tracks completed s nodes s'
  | stopped {before after : List PlanNode} {node : PlanNode} {s' : Executing} {e : AttemptEnd}
      (hlegacy : ∀ node ∈ before, ¬ Legacy completed node) (hended : s'.ended = some e)
      (hat : s'.endedAt = some node.nodeId)
      (hresult : ∀ r, e = .returned r → r.status ≠ .succeeded ∧ r.status ≠ .partialSucceeded)
      (hinvoked : s'.invoked = s.invoked ++ outstanding completed before ∨
        (¬ Legacy completed node ∧
          s'.invoked = s.invoked ++ outstanding completed (before ++ [node])))
      (hfails : Legacy completed node →
        e = .returned (fail s.run.runId "PLAN_LEGACY_DEFINITION")) :
      Tracks completed s (before ++ node :: after) s'

/-- The attempt has passed a node that is done for good. -/
theorem Tracks.cons_done {s s' : Executing} (hdone : StaysDone completed node)
    (h : Tracks completed s nodes s') : Tracks completed s (node :: nodes) s' := by
  have hnot := hdone.not_legacy
  cases h with
  | finished hended hat hlegacy hinvoked =>
    refine .finished hended hat ?_ ?_
    · rintro m hm
      rcases List.mem_cons.mp hm with rfl | hm
      · exact hnot
      · exact hlegacy m hm
    · rw [outstanding_cons_of_done hdone]
      exact hinvoked
  | @stopped before after last s' e hlegacy hended hat hresult hinvoked hfails =>
    refine @Tracks.stopped _ _ (node :: before) _ _ _ _ ?_ hended hat hresult ?_ hfails
    · rintro m hm
      rcases List.mem_cons.mp hm with rfl | hm
      · exact hnot
      · exact hlegacy m hm
    · rw [List.cons_append, outstanding_cons_of_done hdone, outstanding_cons_of_done hdone]
      exact hinvoked

/-- The attempt has run a node and gone on. -/
theorem Tracks.cons_run {s s₁ s' : Executing} (hdone : ¬ StaysDone completed node)
    (hlegacy : ¬ Legacy completed node) (hgoes : GoesPast s node s₁)
    (h : Tracks completed s₁ nodes s') : Tracks completed s (node :: nodes) s' := by
  cases h with
  | finished hended hat hlegacy' hinvoked =>
    refine .finished hended (hat.trans hgoes.endedAt) ?_ ?_
    · rintro m hm
      rcases List.mem_cons.mp hm with rfl | hm
      · exact hlegacy
      · exact hlegacy' m hm
    · rw [outstanding_cons_of_not hdone, hinvoked, hgoes.invoked, List.append_assoc]
      rfl
  | @stopped before after last s' e hlegacy' hended hat hresult hinvoked hfails =>
    refine @Tracks.stopped _ _ (node :: before) _ _ _ _ ?_ hended hat hresult ?_ ?_
    · rintro m hm
      rcases List.mem_cons.mp hm with rfl | hm
      · exact hlegacy
      · exact hlegacy' m hm
    · rw [List.cons_append, outstanding_cons_of_not hdone, outstanding_cons_of_not hdone]
      rw [hgoes.invoked, List.append_assoc, List.append_assoc] at hinvoked
      exact hinvoked
    · rw [← hgoes.runId]
      exact hfails

/-- How a node is entered that has not been visited before. -/
theorem AttemptContext.enter_cases (c : AttemptContext) {s : Executing}
    (hknown : node.nodeId ∈ s.completedNodeIds ↔ node.nodeId ∈ completed) :
    (Legacy completed node ∧ c.enter s node = s.failAt node "PLAN_LEGACY_DEFINITION") ∨
    (StaysDone completed node ∧ c.enter s node = s) ∨
    (¬ StaysDone completed node ∧ ¬ Legacy completed node ∧ c.enter s node = c.check s node) := by
  unfold enter
  split
  next hmem =>
    split
    next hnone => exact Or.inl ⟨⟨hknown.mp hmem, hnone⟩, rfl⟩
    next hfalse => exact Or.inr (Or.inl ⟨⟨hknown.mp hmem, hfalse⟩, rfl⟩)
    next htrue =>
      refine Or.inr (Or.inr ⟨fun hdone => ?_, fun hlegacy => ?_, rfl⟩)
      · rw [hdone.2] at htrue
        cases htrue
      · rw [hlegacy.2] at htrue
        cases htrue
  next hmem =>
    exact Or.inr (Or.inr ⟨fun hdone => hmem (hknown.mpr hdone.1),
      fun hlegacy => hmem (hknown.mpr hlegacy.1), rfl⟩)

namespace AttemptContext

variable (c : AttemptContext)

theorem visit_open {s : Executing} (hopen : s.ended = none) (hskipping : s.skipping = none)
    (node : PlanNode) : c.visit s node = c.enter s node := by
  unfold visit
  rw [hopen, hskipping]
  rfl

/-- Nothing happens once the attempt has ended. -/
theorem run_ended {s : Executing} {e : AttemptEnd} (h : s.ended = some e) :
    ∀ nodes, Runs.run c.visit s nodes = s
  | [] => rfl
  | node :: nodes => by
    have hvisit : c.visit s node = s := by
      unfold visit
      rw [h]
      rfl
    rw [run_cons, hvisit]
    exact run_ended h nodes

/-- An attempt before its target passes over the nodes in front of it. -/
theorem run_skipping {s : Executing} {target : String} (hopen : s.ended = none)
    (hskipping : s.skipping = some target) :
    ∀ nodes : List PlanNode, target ∈ nodes.map (·.nodeId) →
      Runs.run c.visit s nodes
        = Runs.run c.visit { s with skipping := none } (fromTarget (some target) nodes)
  | [], hmem => absurd hmem List.not_mem_nil
  | node :: nodes, hmem => by
    unfold fromTarget
    by_cases hnode : node.nodeId = target
    · -- from here on the two attempts differ in nothing
      have hdrop : (node :: nodes).dropWhile (fun node => decide (node.nodeId ≠ target))
          = node :: nodes := by
        simp [hnode]
      have hvisit : c.visit s node = c.visit { s with skipping := none } node := by
        rw [visit_open c (s := { s with skipping := none }) hopen rfl]
        unfold visit
        rw [hopen, hskipping]
        exact if_pos hnode
      dsimp only
      rw [hdrop, run_cons, run_cons, hvisit]
    · have hdrop : (node :: nodes).dropWhile (fun node => decide (node.nodeId ≠ target))
          = nodes.dropWhile (fun node => decide (node.nodeId ≠ target)) := by
        simp [hnode]
      have hvisit : c.visit s node = s := by
        unfold visit
        rw [hopen, hskipping]
        exact if_neg hnode
      have hrest : target ∈ nodes.map (·.nodeId) := by
        rcases List.mem_cons.mp hmem with heq | hrest
        · exact absurd heq.symm hnode
        · exact hrest
      dsimp only
      rw [hdrop, run_cons, hvisit]
      exact run_skipping hopen hskipping nodes hrest

/-- **The course of an attempt**: over nodes that were not visited before,
which are the nodes that the completed set knows from the checkpoint only. -/
theorem visits_track (completed : List String) :
    ∀ (nodes : List PlanNode) (s : Executing), s.ended = none → s.skipping = none →
      (nodes.map (·.nodeId)).Nodup →
      (∀ node ∈ nodes, node.nodeId ∈ s.completedNodeIds ↔ node.nodeId ∈ completed) →
      Tracks completed s nodes (Runs.run c.visit s nodes)
  | [], s, hopen, _, _, _ =>
    .finished hopen rfl (fun _ hm => (nomatch hm)) (List.append_nil _).symm
  | node :: nodes, s, hopen, hskipping, hnodup, hknown => by
    obtain ⟨hnew, hnodup'⟩ := List.nodup_cons.mp hnodup
    have hknown' : ∀ m ∈ nodes, m.nodeId ∈ s.completedNodeIds ↔ m.nodeId ∈ completed :=
      fun m hm => hknown m (List.mem_cons_of_mem _ hm)
    have hhere := hknown node List.mem_cons_self
    rw [run_cons, visit_open c hopen hskipping]
    rcases c.enter_cases hhere with ⟨_, henter⟩ | ⟨hdone, henter⟩ | ⟨hdone, hlegacy, henter⟩
    · -- the attempt fails here, and the nodes behind are not looked at
      rw [henter, run_ended c (s := s.failAt node "PLAN_LEGACY_DEFINITION") rfl]
      refine @Tracks.stopped _ _ [] _ _ _ _ (fun _ hm => (nomatch hm)) rfl rfl ?_
        (Or.inl (List.append_nil _).symm) (fun _ => rfl)
      rintro r ⟨⟩
      simp [fail]
    · rw [henter]
      exact Tracks.cons_done hdone (visits_track completed nodes s hopen hskipping hnodup' hknown')
    rw [henter]
    rcases c.check_cases s node hopen with ⟨code, _, hfail⟩ | ⟨_, hstops | hgoes⟩
    · -- the policy stops the attempt before the node is given to its runner
      rw [hfail, run_ended c (s := Executing.failAt _ node code) rfl]
      refine @Tracks.stopped _ _ [] _ _ _ _ (fun _ hm => (nomatch hm)) rfl rfl ?_
        (Or.inl (List.append_nil _).symm) (fun h => absurd h hlegacy)
      rintro r ⟨⟩
      simp [fail]
    · obtain ⟨e, hended, hstops'⟩ := hstops.ended
      rw [run_ended c hended]
      refine @Tracks.stopped _ _ [] _ _ _ _ (fun _ hm => (nomatch hm)) hended hstops.endedAt
        (fun r hr => ⟨(hstops' r hr).1, (hstops' r hr).2.1⟩) ?_ (fun h => absurd h hlegacy)
      rcases hstops.invoked with hinvoked | hinvoked
      · exact Or.inl (hinvoked.trans (List.append_nil _).symm)
      · refine Or.inr ⟨hlegacy, ?_⟩
        rw [List.nil_append, outstanding_cons_of_not hdone]
        exact hinvoked
    · exact Tracks.cons_run hdone hlegacy hgoes (visits_track completed nodes _ hgoes.ended
        (hgoes.skipping.trans hskipping) hnodup' (hgoes.knows hnew hknown'))

end AttemptContext

/-! ## A resumed attempt -/

/-- The node a resumed attempt starts from, if not the first. -/
def resumeTarget (run : AgentRun) (state : CheckpointState) : Option String :=
  if run.errorCode = some "WAITING_HUMAN_FALLBACK" then state.resumeFromNodeId else none

/-- The attempt has gone through the plan. -/
def Executing.Succeeds (s : Executing) : Prop :=
  ∃ r, s.result = .returned r ∧ (r.status = .succeeded ∨ r.status = .partialSucceeded)

/-- The nodes `s` has run are those of `nodes` that are not done for
good, in their order, up to the node it ended at; and it has run nothing past
a legacy node. -/
structure RunsTheRest (runId : String) (completed : List String) (nodes : List PlanNode)
    (s : Executing) : Prop where
  inOrder : s.invoked <+: outstanding completed nodes
  complete : s.Succeeds → s.invoked = outstanding completed nodes
  upTo : ∀ before node after, nodes = before ++ node :: after → s.endedAt = some node.nodeId →
    s.invoked = outstanding completed before ∨ s.invoked = outstanding completed (before ++ [node])
  failsClosed : ∀ before node after, nodes = before ++ node :: after → Legacy completed node →
    s.invoked <+: outstanding completed before ∧ ¬ s.Succeeds ∧
      (s.endedAt = some node.nodeId →
        s.result = .returned (fail runId "PLAN_LEGACY_DEFINITION")) ∧
      (s.invoked = [] ∧ s.endedAt = none ∨ ∃ m ∈ before ++ [node], s.endedAt = some m.nodeId)

theorem outstanding_append (completed : List String) (xs ys : List PlanNode) :
    outstanding completed (xs ++ ys) = outstanding completed xs ++ outstanding completed ys := by
  simp [outstanding]

/-- Ids name the place of a node. -/
theorem split_of_nodup : ∀ {before before' after after' : List PlanNode} {node node' : PlanNode},
    ((before ++ node :: after).map (·.nodeId)).Nodup →
    before ++ node :: after = before' ++ node' :: after' → node.nodeId = node'.nodeId →
      before = before' ∧ node = node'
  | [], [], _, _, _, _, _, heq, _ => by
    cases heq
    exact ⟨rfl, rfl⟩
  | [], m :: before', _, _, node, node', hnodup, heq, hid => by
    rw [List.nil_append, List.cons_append, List.cons.injEq] at heq
    obtain ⟨rfl, rfl⟩ := heq
    refine absurd ?_ (List.nodup_cons.mp hnodup).1
    exact List.mem_map.mpr ⟨node', List.mem_append_right _ List.mem_cons_self, hid.symm⟩
  | m :: before, [], _, _, node, node', hnodup, heq, hid => by
    rw [List.nil_append, List.cons_append, List.cons.injEq] at heq
    obtain ⟨rfl, rfl⟩ := heq
    refine absurd ?_ (List.nodup_cons.mp hnodup).1
    exact List.mem_map.mpr ⟨node, List.mem_append_right _ List.mem_cons_self, hid⟩
  | m :: before, m' :: before', _, _, _, _, hnodup, heq, hid => by
    rw [List.cons_append, List.cons_append, List.cons.injEq] at heq
    obtain ⟨rfl, heq⟩ := heq
    obtain ⟨rfl, hnode⟩ := split_of_nodup (List.nodup_cons.mp hnodup).2 heq hid
    exact ⟨rfl, hnode⟩

/-- An attempt that is refused before its first node. -/
theorem runsTheRest_of_refused {s : Executing} {r : AgentRunResult} (hinvoked : s.invoked = [])
    (hat : s.endedAt = none) (hended : s.ended = some (.returned r))
    (hstatus : r.status ≠ .succeeded ∧ r.status ≠ .partialSucceeded) (runId : String)
    (completed : List String) (nodes : List PlanNode) : RunsTheRest runId completed nodes s := by
  have hfails : ¬ s.Succeeds := by
    rintro ⟨r', hr, hsucceeds⟩
    rw [Executing.result, hended] at hr
    cases hr
    exact hsucceeds.elim hstatus.1 hstatus.2
  refine ⟨by rw [hinvoked]; exact List.nil_prefix, fun h => absurd h hfails, fun _ _ _ _ h => ?_,
    fun before node _ _ _ => ⟨by rw [hinvoked]; exact List.nil_prefix, hfails, fun h => ?_,
      Or.inl ⟨hinvoked, hat⟩⟩⟩
  · rw [hat] at h
    cases h
  · rw [hat] at h
    cases h

/-- What the course of an attempt says of the nodes it has run. -/
theorem runsTheRest_of_tracks {s s' : Executing} (hnodup : (nodes.map (·.nodeId)).Nodup)
    (hfresh : s.invoked = []) (hat : s.endedAt = none) (h : Tracks completed s nodes s') :
    RunsTheRest s.run.runId completed nodes s' := by
  cases h with
  | finished hended hat' hlegacy hinvoked =>
    rw [hfresh, List.nil_append] at hinvoked
    refine ⟨⟨[], by rw [List.append_nil, hinvoked]⟩, fun _ => hinvoked, fun _ _ _ _ h => ?_,
      fun before node after hsplit hl => absurd hl (hlegacy node ?_)⟩
    · rw [hat', hat] at h
      cases h
    · rw [hsplit]
      exact List.mem_append_right _ List.mem_cons_self
  | @stopped before after last s' e hlegacy hended hat' hresult hinvoked hclosed =>
    rw [hfresh, List.nil_append, List.nil_append] at hinvoked
    have hfails : ¬ s'.Succeeds := by
      rintro ⟨r, hr, hsucceeds⟩
      rw [Executing.result, hended] at hr
      obtain ⟨hno, hno'⟩ := hresult r hr
      exact hsucceeds.elim hno hno'
    have hupTo : s'.invoked = outstanding completed before ∨
        s'.invoked = outstanding completed (before ++ [last]) :=
      hinvoked.imp_right And.right
    have hprefix : s'.invoked <+: outstanding completed (before ++ [last]) := by
      rcases hupTo with h | h
      · rw [h, outstanding_append]
        exact List.prefix_append _ _
      · exact ⟨[], by rw [List.append_nil, h]⟩
    refine ⟨?_, fun h => absurd h hfails, fun before' node' after' hsplit h => ?_,
      fun before' node' after' hsplit hl => ?_⟩
    · rw [List.append_cons, outstanding_append completed (before ++ [last])]
      exact hprefix.trans (List.prefix_append _ _)
    · -- the ids tell that both splits are at the same node
      rw [hat'] at h
      obtain ⟨rfl, rfl⟩ := split_of_nodup hnodup hsplit (Option.some.inj h)
      exact hupTo
    · -- the attempt ends at the legacy node, or at a node before it
      rcases List.append_eq_append_iff.mp hsplit with ⟨mid, hbefore, hrest⟩ | ⟨mid, hbefore, hrest⟩
      · cases mid with
        | nil =>
          rw [List.nil_append, List.cons.injEq] at hrest
          obtain ⟨rfl, rfl⟩ := hrest
          rw [List.append_nil] at hbefore
          subst hbefore
          have hinvoked' : s'.invoked = outstanding completed before' :=
            hinvoked.elim id fun h => absurd hl h.1
          refine ⟨⟨[], by rw [List.append_nil, hinvoked']⟩, hfails, fun _ => ?_,
            Or.inr ⟨last, List.mem_append_right _ List.mem_cons_self, hat'⟩⟩
          rw [Executing.result, hended, hclosed hl]
          rfl
        | cons m mid =>
          rw [List.cons_append, List.cons.injEq] at hrest
          obtain ⟨rfl, rfl⟩ := hrest
          subst hbefore
          refine ⟨?_, hfails, fun h => ?_, Or.inr ⟨last, ?_, hat'⟩⟩
          · rw [List.append_cons, outstanding_append completed (before ++ [last])]
            exact hprefix.trans (List.prefix_append _ _)
          · rw [hat'] at h
            refine absurd (Option.some.inj h) fun heq => ?_
            have hsame := (split_of_nodup hnodup hsplit heq).1
            have hlength := congrArg List.length hsame
            simp at hlength
          · simp
      · cases mid with
        | nil =>
          rw [List.nil_append, List.cons.injEq] at hrest
          obtain ⟨rfl, rfl⟩ := hrest
          rw [List.append_nil] at hbefore
          subst hbefore
          have hinvoked' : s'.invoked = outstanding completed before :=
            hinvoked.elim id fun h => absurd hl h.1
          refine ⟨⟨[], by rw [List.append_nil, hinvoked']⟩, hfails, fun _ => ?_,
            Or.inr ⟨node', List.mem_append_right _ List.mem_cons_self, hat'⟩⟩
          rw [Executing.result, hended, hclosed hl]
          rfl
        | cons m mid =>
          -- a legacy node in front of the end would have been the end
          rw [List.cons_append, List.cons.injEq] at hrest
          obtain ⟨rfl, rfl⟩ := hrest
          refine absurd hl (hlegacy node' ?_)
          rw [hbefore]
          exact List.mem_append_right _ List.mem_cons_self

theorem Prologue.stops_of_refusal {p : Prologue} {runId : String} {r : AgentRunResult}
    {writes : List ExecWrite} (h : p.refusal runId = some (r, writes)) :
    AttemptEnd.Stops (.returned r) := by
  unfold Prologue.refusal at h
  split at h
  · cases h
    exact AttemptEnd.stops_cancelled runId (by decide)
  split at h
  · cases h
    exact AttemptEnd.stops_cancelled runId (by decide)
  split at h
  · cases h
    exact AttemptEnd.stops_fail runId (by decide)
  split at h
  · cases h
    exact AttemptEnd.stops_draining runId
  · cases h

/-- The target of an attempt that is not refused is a node of the plan. -/
theorem fallbackTarget_eq_some {run : AgentRun} {plan : AgentPlan} {state : CheckpointState}
    {target : Option String} (h : fallbackTarget run plan state.resumeFromNodeId = some target) :
    target = resumeTarget run state ∧ ∀ t ∈ target, t ∈ plan.steps.map (·.nodeId) := by
  unfold fallbackTarget at h
  unfold resumeTarget
  split at h
  next hfallback =>
    rw [if_pos hfallback]
    split at h
    · cases h
    next t hresume =>
      split at h
      next hplan =>
        cases h
        refine ⟨hresume.symm, fun t' ht' => ?_⟩
        cases ht'
        exact hplan.2
      · cases h
  next hfallback =>
    rw [if_neg hfallback]
    cases h
    exact ⟨rfl, fun t ht => by cases ht⟩

/-- From the first node on an attempt visits the nodes at or after its
target. -/
theorem AttemptContext.run_fromTarget (c : AttemptContext) {s : Executing}
    (hopen : s.ended = none) (hplan : ∀ t ∈ s.skipping, t ∈ nodes.map (·.nodeId)) :
    Runs.run c.visit s nodes
      = Runs.run c.visit { s with skipping := none } (fromTarget s.skipping nodes) := by
  cases hskipping : s.skipping with
  | none =>
    have hsame : ({ s with skipping := none } : Executing) = s := by rw [← hskipping]
    rw [hsame]
    rfl
  | some t => exact c.run_skipping hopen hskipping nodes (hplan t hskipping)

theorem fromTarget_sublist (target : Option String) (nodes : List PlanNode) :
    (fromTarget target nodes).Sublist nodes := by
  cases target with
  | none => exact List.Sublist.refl nodes
  | some t => exact List.dropWhile_sublist _

/-- The checkpoint, the plan and the run agree on where to go on. -/
def Resumable (plan : AgentPlan) (run : AgentRun) (state : CheckpointState) : Prop :=
  state.extraKeys = [] ∧ (StaticWorkflowGraph.orderedNodes plan.steps).isSome = true ∧
    (fallbackTarget run plan state.resumeFromNodeId).isSome = true

instance (plan : AgentPlan) (run : AgentRun) (state : CheckpointState) :
    Decidable (Resumable plan run state) := by
  unfold Resumable; infer_instance

/-- An attempt that is to visit the nodes at or after its target. -/
structure SetsOut (run : AgentRun) (state : CheckpointState) (now : Time) (s : Executing) :
    Prop where
  ended : s.ended = none
  endedAt : s.endedAt = none
  skipping : s.skipping = none
  invoked : s.invoked = []
  ids : s.completedNodeIds = state.completedNodeIds.dedup
  steps : s.completedSteps = state.completedNodeIds.dedup.length
  run : s.run = run
  clock : s.clock = now
  activeStartedAt : s.activeStartedAt = now

/-- A resumed attempt is refused, or visits the nodes at or after its
target. -/
theorem AttemptContext.resume_cases (c : AttemptContext) (p : Prologue) (run : AgentRun)
    (state : CheckpointState) :
    (∃ s r writes, c.resume p run (some state) = Executing.refused s r writes ∧ s.invoked = [] ∧
      s.endedAt = none ∧ AttemptEnd.Stops (.returned r) ∧
      (Resumable c.plan run state → p.refusal run.runId ≠ none)) ∨
    (Resumable c.plan run state ∧ (c.plan.steps.map (·.nodeId)).Nodup ∧
      ∃ s, SetsOut run state p.clock s ∧ c.resume p run (some state)
        = Runs.run c.visit s (fromTarget (resumeTarget run state) c.plan.steps)) := by
  unfold resume
  dsimp only
  split
  next hkeys =>
    exact Or.inl ⟨_, _, _, rfl, rfl, rfl, AttemptEnd.stops_fail _ (by decide),
      fun h => absurd h.1 hkeys⟩
  next hkeys =>
  unfold execute
  dsimp only
  split
  next hgraph =>
    refine Or.inl ⟨_, _, _, rfl, rfl, rfl, AttemptEnd.stops_fail _ (by decide), fun h => ?_⟩
    have hsome := h.2.1
    rw [hgraph] at hsome
    cases hsome
  next nodes hgraph =>
  obtain ⟨rfl, hnodup⟩ := StaticWorkflowGraph.orderedNodes_eq_some hgraph
  split
  next htarget =>
    refine Or.inl ⟨_, _, _, rfl, rfl, rfl, AttemptEnd.stops_fail _ (by decide), fun h => ?_⟩
    have hsome := h.2.2
    rw [htarget] at hsome
    cases hsome
  next target htarget =>
  have hresumable : Resumable c.plan run state :=
    ⟨Decidable.not_not.mp hkeys, by rw [hgraph]; rfl, by rw [htarget]; rfl⟩
  obtain ⟨rfl, hplan⟩ := fallbackTarget_eq_some htarget
  split
  next r writes hrefusal =>
    refine Or.inl ⟨_, _, _, rfl, rfl, rfl, p.stops_of_refusal hrefusal, fun _ => ?_⟩
    rw [hrefusal]
    exact Option.some_ne_none _
  next =>
    refine Or.inr ⟨hresumable, hnodup, _, ?_, c.run_fromTarget rfl hplan⟩
    exact ⟨rfl, rfl, rfl, rfl, rfl, rfl, rfl, rfl, rfl⟩

/-- **The nodes of a resumed attempt.** Whatever the attempt meets, it gives
to their runner the nodes at or after its target, in the order of the plan,
but for those that are completed and not safe to run again, up to the node it
ends at; and it ends, failed, at a completed node among them that does not
say whether it is. -/
theorem resume_invokes (c : AttemptContext) (p : Prologue) (run : AgentRun)
    (state : CheckpointState) :
    RunsTheRest run.runId state.completedNodeIds
      (fromTarget (resumeTarget run state) c.plan.steps) (c.resume p run (some state)) := by
  rcases c.resume_cases p run state with
    ⟨s, r, writes, hresume, hinvoked, hat, hstops, _⟩ | ⟨_, hnodup, s, hs, hresume⟩
  · rw [hresume]
    have hstatus := hstops r rfl
    exact runsTheRest_of_refused (s := s.refused r writes) hinvoked hat rfl
      ⟨hstatus.1, hstatus.2.1⟩ _ _ _
  · rw [hresume]
    have hsub := fromTarget_sublist (resumeTarget run state) c.plan.steps
    have hnodup' := hnodup.sublist (hsub.map (·.nodeId))
    have htracks := c.visits_track state.completedNodeIds
      (fromTarget (resumeTarget run state) c.plan.steps) s hs.ended hs.skipping hnodup'
      fun node _ => by
        rw [hs.ids]
        exact List.mem_dedup
    have hrest := runsTheRest_of_tracks hnodup' hs.invoked hs.endedAt htracks
    rwa [hs.run] at hrest

/-! ## A legacy node before the target -/

/-- A node that was completed before plans said whether it may run again, and
the fallback of a pause. -/
def legacyPlan : AgentPlan :=
  { runId := "run-1"
    steps := [{ nodeId := "load", safeToRerun := none }, { nodeId := "fallback" }]
    stopConditions := defaultStopConditions
    fallbackPolicy := { waitingHumanFallbackNode := some "fallback" } }

/-- A run that resumes at its fallback. -/
def fallbackRun : AgentRun :=
  { runId := "run-1", agentId := "agent", agentVersion := "1.0.0", packageDigest := "digest",
    callerId := "caller", tenantId := "tenant", errorCode := some "WAITING_HUMAN_FALLBACK" }

def legacyState : CheckpointState :=
  { completedSteps := 1, completedNodeIds := ["load"], resumeFromNodeId := some "fallback" }

/-- Nothing goes wrong at any node. -/
def smoothly (plan : AgentPlan) : AttemptContext :=
  { plan := plan, executionAttempt := 1, turn := fun _ => {} }

/-- The attempt resumes behind the legacy node, and goes through. -/
theorem legacy_before_target_runs :
    (∃ node ∈ legacyPlan.steps, Legacy legacyState.completedNodeIds node) ∧
    ((smoothly legacyPlan).resume {} fallbackRun (some legacyState)).invoked = ["fallback"] ∧
    ((smoothly legacyPlan).resume {} fallbackRun (some legacyState)).Succeeds :=
  ⟨by decide, by decide +kernel, _, rfl, Or.inl rfl⟩

end AgentRuntime
