import AgentRuntime.ResumedNodes

/-!
# The step budget of a resumed attempt

The step counter of an attempt starts at the number of completed nodes, and
counts every node it completes. A completed node that is safe to run again is
then counted twice: the attempt fits into `max_steps` if the completed nodes
and the nodes it has to run do so together (`resume_within_steps_iff`), not if
the plan does.

The direction from the condition is over every course of the attempt
(`visits_within`); the other one takes the course in which nothing goes wrong
(`visits_exceed`).
-/

namespace AgentRuntime

open Keyed Runs WorkflowExecutor

/-! ## The nodes to run -/

/-- The nodes that are to run, up to one that is completed and does not say
whether it may. -/
def toRun (completed : List String) (nodes : List PlanNode) : List PlanNode :=
  (nodes.takeWhile (fun node => decide (¬ Legacy completed node))).filter
    (fun node => decide (¬ StaysDone completed node))

/-- The nodes a resumed attempt is to run: none where it is refused. -/
def nodesToRun (plan : AgentPlan) (run : AgentRun) (state : CheckpointState) : List PlanNode :=
  if Resumable plan run state then
    toRun state.completedNodeIds (fromTarget (resumeTarget run state) plan.steps)
  else []

/-- `max_steps` of the frozen policy. -/
def maxSteps (run : AgentRun) : Option Int :=
  run.executionPolicy.bind fun policy => nonnegativeInt policy.maxSteps

variable {completed : List String} {node : PlanNode} {nodes : List PlanNode}

theorem toRun_cons_of_legacy (h : Legacy completed node) :
    toRun completed (node :: nodes) = [] := by
  simp [toRun, h]

theorem toRun_cons_of_done (h : StaysDone completed node) :
    toRun completed (node :: nodes) = toRun completed nodes := by
  simp [toRun, h, h.not_legacy]

theorem toRun_cons_of_not (hdone : ¬ StaysDone completed node) (hlegacy : ¬ Legacy completed node) :
    toRun completed (node :: nodes) = node :: toRun completed nodes := by
  simp [toRun, hdone, hlegacy]

/-! ## What the policy says of the steps -/

/-- The step limit is the first that is asked. -/
theorem asks_steps (c : AttemptContext) (s : Executing) (node : PlanNode) :
    c.asks s node = .error "STEP_LIMIT_EXCEEDED" ↔
      ∃ max, maxSteps s.run = some max ∧ max < (s.completedSteps : Int) + 1 := by
  unfold AttemptContext.asks assertCanContinue maxSteps
  cases s.run.executionPolicy with
  | none => simp
  | some policy =>
    have hover : overLimit ((s.completedSteps : Int) + 1) policy.maxSteps = true ↔
        ∃ max, nonnegativeInt policy.maxSteps = some max ∧ max < (s.completedSteps : Int) + 1 := by
      have hvalue : nonnegativeInt (some ((s.completedSteps : Int) + 1))
          = some ((s.completedSteps : Int) + 1) := by
        have hnonneg : (0 : Int) ≤ s.completedSteps + 1 := by omega
        simp [nonnegativeInt, hnonneg]
      unfold overLimit
      rw [hvalue]
      cases nonnegativeInt policy.maxSteps with
      | none => simp
      | some max => simp
    dsimp only [Option.bind_some]
    rw [← hover]
    split
    next h => simp [h]
    next h =>
      refine iff_of_false (fun hasks => ?_) h
      split at hasks
      · simp at hasks
      split at hasks
      · simp at hasks
      split at hasks
      · split at hasks
        · simp at hasks
        · cases hasks
      · cases hasks

/-! ## Every course stays within the budget -/

/-- The attempt does not end at the step limit. -/
def WithinSteps (s : Executing) : Prop :=
  ∀ r, s.result = .returned r → r.errorCode ≠ some "STEP_LIMIT_EXCEEDED"

theorem withinSteps_of_stops {s : Executing} {e : AttemptEnd} (hended : s.ended = some e)
    (hstops : e.Stops) : WithinSteps s := by
  intro r hr
  rw [Executing.result, hended] at hr
  exact (hstops r hr).2.2

theorem withinSteps_of_open {s : Executing} (hopen : s.ended = none) : WithinSteps s := by
  intro r hr
  rw [Executing.result, hopen] at hr
  cases hr
  simp

namespace AttemptContext

variable (c : AttemptContext)

/-- **Within the budget**: the counter goes up by at most one at each node
that is to run, so that it stays below the number of nodes still to run. -/
theorem visits_within (completed : List String) (max : Option Int) :
    ∀ (nodes : List PlanNode) (s : Executing), s.ended = none → s.skipping = none →
      (nodes.map (·.nodeId)).Nodup →
      (∀ node ∈ nodes, node.nodeId ∈ s.completedNodeIds ↔ node.nodeId ∈ completed) →
      maxSteps s.run = max →
      (∀ n ∈ max, toRun completed nodes = [] ∨
        (s.completedSteps : Int) + (toRun completed nodes).length ≤ n) →
      WithinSteps (Runs.run c.visit s nodes)
  | [], s, hopen, _, _, _, _, _ => withinSteps_of_open hopen
  | node :: nodes, s, hopen, hskipping, hnodup, hknown, hmax, hfits => by
    obtain ⟨hnew, hnodup'⟩ := List.nodup_cons.mp hnodup
    have hknown' : ∀ m ∈ nodes, m.nodeId ∈ s.completedNodeIds ↔ m.nodeId ∈ completed :=
      fun m hm => hknown m (List.mem_cons_of_mem _ hm)
    rw [run_cons, visit_open c hopen hskipping]
    rcases c.enter_cases (hknown node List.mem_cons_self) with
      ⟨_, henter⟩ | ⟨hdone, henter⟩ | ⟨hdone, hlegacy, henter⟩
    · rw [henter, run_ended c (s := s.failAt node "PLAN_LEGACY_DEFINITION") rfl]
      exact withinSteps_of_stops (s := s.failAt node "PLAN_LEGACY_DEFINITION") rfl
        (AttemptEnd.stops_fail _ (by decide))
    · rw [henter]
      rw [toRun_cons_of_done hdone] at hfits
      exact visits_within completed max nodes s hopen hskipping hnodup' hknown' hmax hfits
    rw [toRun_cons_of_not hdone hlegacy] at hfits
    have hfits' : ∀ n ∈ max, (s.completedSteps : Int) + 1 + (toRun completed nodes).length ≤ n := by
      intro n hn
      rcases hfits n hn with hnil | hle
      · cases hnil
      · rw [List.length_cons] at hle
        omega
    rw [henter]
    rcases c.check_cases s node hopen with ⟨code, hasks, hfail⟩ | ⟨_, hstops | hgoes⟩
    · -- the step limit is the only one that could refuse here, and it does not
      rw [hfail, run_ended c (s := Executing.failAt _ node code) rfl]
      rintro r ⟨⟩ hcode
      obtain rfl : code = "STEP_LIMIT_EXCEEDED" := Option.some.inj hcode
      obtain ⟨n, hn, hover⟩ := (asks_steps c s node).mp hasks
      have hle := hfits' n (hmax ▸ hn)
      omega
    · obtain ⟨e, hended, hstops'⟩ := hstops.ended
      rw [run_ended c hended]
      exact withinSteps_of_stops hended hstops'
    · refine visits_within completed max nodes _ hgoes.ended (hgoes.skipping.trans hskipping)
        hnodup' (hgoes.knows hnew hknown') ?_ fun n hn => Or.inr ?_
      · rw [← hmax, maxSteps, maxSteps, hgoes.policy]
      · -- a node that is passed over does not count, one that is done counts once
        have hle := hfits' n hn
        rcases hgoes.progress with ⟨_, hsteps⟩ | ⟨_, hsteps⟩
        · rw [hsteps]
          omega
        · rw [hsteps]
          omega

end AttemptContext

/-! ## The course in which nothing goes wrong -/

/-- No time has passed. -/
structure Smooth (s : Executing) : Prop where
  ended : s.ended = none
  skipping : s.skipping = none
  noTime : s.run.activeElapsedMs = 0
  clock : s.activeStartedAt = s.clock

/-- In a smooth course only the steps count. -/
theorem asks_smooth {s : Executing} (plan : AgentPlan) (node : PlanNode) (hsmooth : Smooth s)
    (h : ∀ max, maxSteps s.run = some max → (s.completedSteps : Int) + 1 ≤ max) :
    (smoothly plan).asks s node = .ok () := by
  have hno : ¬ (smoothly plan).asks s node = .error "STEP_LIMIT_EXCEEDED" := by
    rw [asks_steps]
    rintro ⟨max, hmax, hover⟩
    have hle := h max hmax
    omega
  have htime : elapsedMs s.activeStartedAt (s.clock + ((smoothly plan).turn node.nodeId).toCheck)
      = 0 := by
    rw [hsmooth.clock]
    simp [elapsedMs, smoothly]
  unfold AttemptContext.asks assertCanContinue at hno ⊢
  rw [htime] at hno ⊢
  split
  · rfl
  next policy hpolicy =>
    rw [hpolicy] at hno
    dsimp only at hno
    split
    next hover => exact absurd (if_pos hover) hno
    simp only [overLimit_zero, Bool.false_eq_true, if_false]
    split
    next max delta hmax hdelta =>
      have hnonneg : 0 ≤ max := of_decide_eq_true (Option.filter_eq_some_iff.mp hmax).2
      obtain rfl : delta = 0 := by
        cases hdelta
        rfl
      rw [hsmooth.noTime, if_neg (by omega)]
    · rfl

/-- A smooth course completes the node. -/
theorem check_smooth {s : Executing} (plan : AgentPlan) (node : PlanNode) (hsmooth : Smooth s)
    (hasks : (smoothly plan).asks s node = .ok ()) :
    Smooth ((smoothly plan).check s node) ∧
      ((smoothly plan).check s node).completedSteps = s.completedSteps + 1 := by
  have hcheck : (smoothly plan).check s node = (smoothly plan).complete
      (s.handOver node []) node s.run.activeElapsedMs false false false := by
    unfold AttemptContext.asks at hasks
    unfold AttemptContext.check
    dsimp only
    rw [hasks]
    rfl
  rw [hcheck]
  refine ⟨⟨hsmooth.ended, hsmooth.skipping, ?_, rfl⟩, rfl⟩
  show s.run.activeElapsedMs + _ = 0
  rw [hsmooth.noTime]
  show 0 + (elapsedMs s.activeStartedAt (s.clock + 0) - (s.run.activeElapsedMs - 0)) = 0
  rw [hsmooth.clock, hsmooth.noTime]
  simp [elapsedMs]

/-- **Beyond the budget**: a smooth course completes every node that is to
run, until the counter is over. -/
theorem visits_exceed (plan : AgentPlan) (completed : List String) (max : Int) :
    ∀ (nodes : List PlanNode) (s : Executing), Smooth s →
      (nodes.map (·.nodeId)).Nodup →
      (∀ node ∈ nodes, node.nodeId ∈ s.completedNodeIds ↔ node.nodeId ∈ completed) →
      maxSteps s.run = some max → toRun completed nodes ≠ [] →
      max < (s.completedSteps : Int) + (toRun completed nodes).length →
      ¬ WithinSteps (Runs.run (smoothly plan).visit s nodes)
  | [], _, _, _, _, _, hsome, _ => absurd rfl hsome
  | node :: nodes, s, hsmooth, hnodup, hknown, hmax, hsome, hover => by
    obtain ⟨hnew, hnodup'⟩ := List.nodup_cons.mp hnodup
    have hknown' : ∀ m ∈ nodes, m.nodeId ∈ s.completedNodeIds ↔ m.nodeId ∈ completed :=
      fun m hm => hknown m (List.mem_cons_of_mem _ hm)
    rw [run_cons, AttemptContext.visit_open _ hsmooth.ended hsmooth.skipping]
    rcases (smoothly plan).enter_cases (hknown node List.mem_cons_self) with
      ⟨hlegacy, _⟩ | ⟨hdone, henter⟩ | ⟨hdone, hlegacy, henter⟩
    · exact absurd (toRun_cons_of_legacy hlegacy) hsome
    · rw [henter]
      rw [toRun_cons_of_done hdone] at hsome hover
      exact visits_exceed plan completed max nodes s hsmooth hnodup' hknown' hmax hsome hover
    rw [toRun_cons_of_not hdone hlegacy, List.length_cons] at hover
    rw [henter]
    have hcases := (smoothly plan).check_cases s node hsmooth.ended
    by_cases hfirst : max < (s.completedSteps : Int) + 1
    · -- the counter is over at this node
      have hasks := (asks_steps (smoothly plan) s node).mpr ⟨max, hmax, hfirst⟩
      rcases hcases with ⟨code, hcode, hfail⟩ | ⟨hok, _⟩
      · rw [hasks] at hcode
        cases hcode
        rw [hfail, AttemptContext.run_ended _ (s := Executing.failAt _ node _) rfl]
        exact fun h => h _ rfl rfl
      · rw [hasks] at hok
        cases hok
    · have hasks := asks_smooth plan node hsmooth fun max' hmax' => by
        rw [hmax] at hmax'
        cases hmax'
        omega
      obtain ⟨hsmooth', hsteps⟩ := check_smooth plan node hsmooth hasks
      rcases hcases with ⟨code, hcode, _⟩ | ⟨_, hstops | hgoes⟩
      · rw [hasks] at hcode
        cases hcode
      · obtain ⟨e, hended, _⟩ := hstops.ended
        rw [hsmooth'.ended] at hended
        cases hended
      · have hrest : toRun completed nodes ≠ [] := by
          intro hnil
          rw [hnil, List.length_nil] at hover
          omega
        refine visits_exceed plan completed max nodes _ hsmooth' hnodup' (hgoes.knows hnew hknown')
          ?_ hrest ?_
        · rw [maxSteps, hgoes.policy]
          exact hmax
        · rw [hsteps]
          omega

/-! ## A resumed attempt within its budget -/

/-- Whatever the attempt meets, and whatever active time its run has had, it
does not end at the step limit. -/
def NeverOverSteps (plan : AgentPlan) (run : AgentRun) (state : CheckpointState) : Prop :=
  ∀ (c : AttemptContext) (p : Prologue) (active : Nat), c.plan = plan →
    WithinSteps (c.resume p { run with activeElapsedMs := active } (some state))

/-- **The step budget of a resumed attempt**: it is never over iff the
completed nodes and the nodes to run stay within it together. -/
theorem resume_within_steps_iff (plan : AgentPlan) (run : AgentRun) (state : CheckpointState) :
    NeverOverSteps plan run state ↔
      ∀ max, maxSteps run = some max → nodesToRun plan run state = [] ∨
        (state.completedNodeIds.dedup.length : Int) + (nodesToRun plan run state).length ≤ max := by
  have hsub := fromTarget_sublist (resumeTarget run state) plan.steps
  constructor
  · -- a resume in which nothing else goes wrong shows that the budget is short
    intro hnever max hmax
    by_contra hover
    obtain ⟨hsome, hover⟩ := not_or.mp hover
    rw [not_le] at hover
    rcases (smoothly plan).resume_cases {} { run with activeElapsedMs := 0 } state with
      ⟨_, _, _, _, _, _, _, hrefused⟩ | ⟨hresumable, hnodup, s, hs, hresume⟩
    · have hnot : ¬ Resumable plan run state := fun h => hrefused h rfl
      exact hsome (if_neg hnot)
    · rw [nodesToRun, if_pos (show Resumable plan run state from hresumable)] at hsome hover
      have hwithin := hnever (smoothly plan) {} 0 rfl
      rw [hresume] at hwithin
      refine visits_exceed plan state.completedNodeIds max _ s
        ⟨hs.ended, hs.skipping, by rw [hs.run], hs.activeStartedAt.trans hs.clock.symm⟩
        (hnodup.sublist (hsub.map (·.nodeId))) (fun node _ => ?_) ?_ hsome ?_ hwithin
      · rw [hs.ids]
        exact List.mem_dedup
      · rw [maxSteps, hs.run]
        exact hmax
      · rw [hs.steps]
        exact hover
  · rintro hfits c p active rfl
    rcases c.resume_cases p { run with activeElapsedMs := active } state with
      ⟨s, r, writes, hresume, _, _, hstops, _⟩ | ⟨hresumable, hnodup, s, hs, hresume⟩
    · rw [hresume]
      exact withinSteps_of_stops (s := s.refused r writes) rfl hstops
    · rw [hresume]
      rw [nodesToRun, if_pos (show Resumable c.plan run state from hresumable)] at hfits
      refine c.visits_within state.completedNodeIds (maxSteps run) _ s hs.ended hs.skipping
        (hnodup.sublist (hsub.map (·.nodeId))) (fun node _ => ?_) ?_ fun n hn => ?_
      · rw [hs.ids]
        exact List.mem_dedup
      · rw [maxSteps, hs.run]
        rfl
      · rw [hs.steps]
        exact hfits n hn

/-! ## A plan within its budget that is over it -/

/-- A node that may run again, and one that waits for a human. -/
def reviewPlan : AgentPlan :=
  { runId := "run-1"
    steps := [{ nodeId := "load", safeToRerun := some true },
      { nodeId := "review", canWaitForHuman := true }]
    stopConditions := defaultStopConditions
    fallbackPolicy := {} }

/-- A run of two steps at most. -/
def twoStepRun : AgentRun :=
  { fallbackRun with
    errorCode := none
    executionPolicy := some { maxSteps := some 2 } }

/-- The attempt comes to the review, and pauses. -/
def pausing : AttemptContext :=
  { smoothly reviewPlan with
    turn := fun nodeId =>
      { outcome := .completed false (decide (nodeId = "review")) false } }

/-- The plan has two nodes, and the attempt that pauses has run both; resumed,
it fails at the first. -/
theorem resumed_over_steps :
    ∃ state, (.saveCheckpoint "attempt:1:step:2" state) ∈ (pausing.fresh {} twoStepRun).writes ∧
      (pausing.fresh {} twoStepRun).result
        = .returned { runId := "run-1", status := .waitingHuman } ∧
      maxSteps twoStepRun = some reviewPlan.steps.length ∧
      ((smoothly reviewPlan).resume {} twoStepRun (some state)).result
        = .returned (fail "run-1" "STEP_LIMIT_EXCEEDED") :=
  ⟨{ completedSteps := 2, completedNodeIds := ["review", "load"] }, by decide +kernel,
    by decide +kernel, rfl, by decide +kernel⟩

end AgentRuntime
