import AgentRuntime.ResumedNodes

/-!
# The active time of an attempt

An attempt adds to `active_elapsed_ms` where it waits for a provider, as soon
as the wait is over, and at the end of a node that it completes, then without
what the waits of this node have added. So the time of a completed node is in
the row once (`markDone_active`), but for the part below a millisecond. What
is not: the time between the two readings of the clock at a boundary, and, a
second time, the waits of a node that has failed and is passed over, which the
next node does not know of.

`active_time_counted_iff`: the row has the time since the start of the attempt
at every boundary iff at every boundary these make up for each other.
-/

namespace AgentRuntime

open Keyed Runs WorkflowExecutor

/-! ## Waits -/

/-- The time up to the end of the last wait. -/
def waitTime : List ProviderWait → Time
  | [] => 0
  | w :: waits => w.before + w.length + waitTime waits

/-- What the waits add to the row. -/
def recordedMs : List ProviderWait → Nat
  | [] => 0
  | w :: waits => (if w.recorded = true then w.length / 1000 else 0) + recordedMs waits

theorem recordedMs_le : ∀ waits : List ProviderWait, 1000 * recordedMs waits ≤ waitTime waits
  | [] => Nat.le_refl 0
  | w :: waits => by
    have hrest := recordedMs_le waits
    unfold recordedMs waitTime
    split
    · omega
    · omega

/-- Only the clock and the active time of the run may have changed. -/
structure SameBoundary (s s' : Executing) : Prop where
  activeStartedAt : s'.activeStartedAt = s.activeStartedAt
  boundary : s'.boundary = s.boundary
  chargedAt : s'.chargedAt = s.chargedAt
  clock : s.clock ≤ s'.clock
  active : s.run.activeElapsedMs ≤ s'.run.activeElapsedMs

theorem SameBoundary.refl (s : Executing) : SameBoundary s s :=
  ⟨rfl, rfl, rfl, Nat.le_refl _, Nat.le_refl _⟩

theorem SameBoundary.emit {s s' : Executing} (h : SameBoundary s s') (writes : List ExecWrite) :
    SameBoundary s (s'.emit writes) :=
  ⟨h.activeStartedAt, h.boundary, h.chargedAt, h.clock, h.active⟩

theorem SameBoundary.stop {s s' : Executing} (h : SameBoundary s s') (node : PlanNode)
    (e : AttemptEnd) : SameBoundary s (s'.stop node e) :=
  ⟨h.activeStartedAt, h.boundary, h.chargedAt, h.clock, h.active⟩

/-- What the waits of a node have done. -/
theorem waitAll_spec : ∀ (waits : List ProviderWait) (s : Executing),
    (s.waitAll waits).clock = s.clock + waitTime waits ∧
      (s.waitAll waits).run.activeElapsedMs = s.run.activeElapsedMs + recordedMs waits ∧
      SameBoundary s (s.waitAll waits)
  | [], s => ⟨rfl, rfl, SameBoundary.refl s⟩
  | w :: waits, s => by
    obtain ⟨hclock, hactive, hsame⟩ := waitAll_spec waits (s.wait w)
    have hw : (s.wait w).clock = s.clock + w.before + w.length ∧
        (s.wait w).run.activeElapsedMs
          = s.run.activeElapsedMs + (if w.recorded = true then w.length / 1000 else 0) ∧
        (s.wait w).activeStartedAt = s.activeStartedAt ∧ (s.wait w).boundary = s.boundary ∧
        (s.wait w).chargedAt = s.chargedAt := by
      unfold Executing.wait
      dsimp only
      split
      · exact ⟨rfl, rfl, rfl, rfl, rfl⟩
      · exact ⟨rfl, rfl, rfl, rfl, rfl⟩
    obtain ⟨hwclock, hwactive, hwstarted, hwboundary, hwcharged⟩ := hw
    show (Executing.waitAll (s.wait w) waits).clock = _ ∧
      (Executing.waitAll (s.wait w) waits).run.activeElapsedMs = _ ∧
      SameBoundary s (Executing.waitAll (s.wait w) waits)
    unfold waitTime recordedMs
    refine ⟨?_, ?_, hsame.activeStartedAt.trans hwstarted, hsame.boundary.trans hwboundary,
      hsame.chargedAt.trans hwcharged, ?_, ?_⟩
    · rw [hclock, hwclock, Nat.add_assoc s.clock, Nat.add_assoc s.clock]
    · rw [hactive, hwactive, Nat.add_assoc]
    · rw [hclock, hwclock, Nat.add_assoc s.clock, Nat.add_assoc s.clock]
      exact Nat.le_add_right _ _
    · rw [hactive, hwactive, Nat.add_assoc]
      exact Nat.le_add_right _ _

/-! ## Which visits complete their node -/

/-- The runner returns a result. -/
def NodeOutcome.returns : NodeOutcome → Bool
  | .completed _ _ _ => true
  | _ => false

namespace AttemptContext

variable (c : AttemptContext)

/-- The visit comes to the node. -/
def Enters (s : Executing) (node : PlanNode) : Prop :=
  s.ended = none ∧ (s.skipping = none ∨ s.skipping = some node.nodeId) ∧
    (node.nodeId ∈ s.completedNodeIds → node.safeToRerun = some true)

/-- The node is run to its end, and its work is written. -/
def Completes (s : Executing) (node : PlanNode) : Prop :=
  Enters s node ∧ c.asks s node = .ok () ∧
    (c.turn node.nodeId).checks.refusal s.run.runId = none ∧
    (c.turn node.nodeId).outcome.returns = true ∧ (c.turn node.nodeId).owned = true ∧
    (c.turn node.nodeId).artifactSaved = true ∧ (c.turn node.nodeId).checkpointSaved = true

/-- The reading of the clock at the end of the node. -/
def endReading (s : Executing) (node : PlanNode) : Time :=
  s.clock + (c.turn node.nodeId).toCheck + waitTime (c.turn node.nodeId).waits
    + (c.turn node.nodeId).work

/-- The waits of a node are over before its end. -/
theorem le_endReading {s : Executing} (node : PlanNode) (hclock : s.activeStartedAt ≤ s.clock) :
    1000 * recordedMs (c.turn node.nodeId).waits + s.activeStartedAt ≤ c.endReading s node := by
  have hwaits := recordedMs_le (c.turn node.nodeId).waits
  unfold endReading
  rw [Nat.add_comm]
  refine Nat.le_trans (Nat.add_le_add ?_ hwaits) (Nat.le_add_right _ _)
  exact Nat.le_trans hclock (Nat.le_add_right _ _)

/-- What a check does that nothing stops. -/
theorem check_open {s : Executing} {node : PlanNode} (hasks : c.asks s node = .ok ())
    (hrefusal : (c.turn node.nodeId).checks.refusal s.run.runId = none) :
    c.check s node = c.invoke { s with clock := s.clock + (c.turn node.nodeId).toCheck } node := by
  unfold asks at hasks
  unfold check
  dsimp only
  rw [hasks]
  dsimp only
  rw [hrefusal]

/-- The active time after a node that is done: its time has been added, up to
the part below a millisecond. -/
theorem markDone_active {s : Executing} {node : PlanNode} {activeBefore recorded : Nat}
    {skipped degraded : Bool} (hactive : s.run.activeElapsedMs = activeBefore + recorded)
    (hrecorded : 1000 * recorded + s.activeStartedAt ≤ s.clock + (c.turn node.nodeId).work) :
    1000 * (c.markDone s node activeBefore skipped degraded).run.activeElapsedMs
        + (s.clock + (c.turn node.nodeId).work - s.activeStartedAt) % 1000
      = 1000 * activeBefore + (s.clock + (c.turn node.nodeId).work - s.activeStartedAt) := by
  show 1000 * (s.run.activeElapsedMs
    + ((s.clock + (c.turn node.nodeId).work - s.activeStartedAt) / 1000
      - (s.run.activeElapsedMs - activeBefore))) + _ = _
  rw [hactive]
  generalize s.clock + (c.turn node.nodeId).work = reading at hrecorded ⊢
  -- the waits do not exceed the node, so that their difference is cut nowhere
  have hle : recorded ≤ (reading - s.activeStartedAt) / 1000 := by
    rw [Nat.le_div_iff_mul_le (by decide)]
    exact Nat.le_sub_of_add_le (by rwa [Nat.mul_comm])
  have hdiv := Nat.div_add_mod (reading - s.activeStartedAt) 1000
  generalize (reading - s.activeStartedAt) / 1000 = q at hle hdiv ⊢
  generalize (reading - s.activeStartedAt) % 1000 = m at hdiv ⊢
  rw [← hdiv]
  omega

/-- What follows a node that is done does not touch the time. -/
theorem afterDone_time (s : Executing) (node : PlanNode) (waitingHuman : Bool) :
    (c.afterDone s node waitingHuman).run = s.run ∧
      (c.afterDone s node waitingHuman).clock = s.clock ∧
      (c.afterDone s node waitingHuman).activeStartedAt = s.activeStartedAt ∧
      (c.afterDone s node waitingHuman).boundary = s.boundary ∧
      (c.afterDone s node waitingHuman).chargedAt = s.chargedAt := by
  unfold afterDone
  dsimp only
  split
  · exact ⟨rfl, rfl, rfl, rfl, rfl⟩
  split
  · exact ⟨rfl, rfl, rfl, rfl, rfl⟩
  split
  · split
    · exact ⟨rfl, rfl, rfl, rfl, rfl⟩
    split
    · exact ⟨rfl, rfl, rfl, rfl, rfl⟩
    · exact ⟨rfl, rfl, rfl, rfl, rfl⟩
  · exact ⟨rfl, rfl, rfl, rfl, rfl⟩

/-- The time after a visit that completes its node. -/
structure BoundaryReached (s : Executing) (node : PlanNode) (s' : Executing) : Prop where
  boundary : s'.boundary = c.endReading s node
  chargedAt : s'.chargedAt = s'.run.activeElapsedMs
  startedAt : s'.boundary ≤ s'.activeStartedAt
  clock : s'.clock = s'.activeStartedAt
  active : 1000 * s'.run.activeElapsedMs + (c.endReading s node - s.activeStartedAt) % 1000
    = 1000 * s.run.activeElapsedMs + (c.endReading s node - s.activeStartedAt)

/-- A node whose work is written is done. -/
theorem complete_saved {s : Executing} {node : PlanNode} {activeBefore : Nat}
    {skipped waitingHuman degraded : Bool} (howned : (c.turn node.nodeId).owned = true)
    (hartifact : (c.turn node.nodeId).artifactSaved = true)
    (hsaved : (c.turn node.nodeId).checkpointSaved = true) :
    c.complete s node activeBefore skipped waitingHuman degraded
      = c.afterDone (c.markDone s node activeBefore skipped degraded) node waitingHuman := by
  unfold complete
  dsimp only
  rw [if_neg (by rw [howned]; simp), if_neg (by rw [hartifact]; simp),
    if_neg (by rw [hsaved]; simp)]

theorem visit_completes {s : Executing} {node : PlanNode} (h : c.Completes s node)
    (hclock : s.activeStartedAt ≤ s.clock) : c.BoundaryReached s node (c.visit s node) := by
  obtain ⟨⟨hopen, hskipping, hrerun⟩, hasks, hrefusal, houtcome, howned, hartifact, hsaved⟩ := h
  -- a node that was completed before is only run again where that is safe
  have henter : ∀ s : Executing, (node.nodeId ∈ s.completedNodeIds →
      node.safeToRerun = some true) → c.enter s node = c.check s node := by
    intro s hrerun
    unfold enter
    split
    next hmem => rw [hrerun hmem]
    next => rfl
  have hvisit : c.visit s node = c.check { s with skipping := none } node := by
    rcases hskipping with hskipping | hskipping
    · have hsame : ({ s with skipping := none } : Executing) = s := by rw [← hskipping]
      rw [hsame, c.visit_open hopen hskipping]
      exact henter s hrerun
    · rw [← henter { s with skipping := none } hrerun]
      unfold visit
      rw [hopen, hskipping]
      exact if_pos rfl
  rw [hvisit, c.check_open (s := { s with skipping := none }) hasks hrefusal]
  cases hout : (c.turn node.nodeId).outcome with
  | completed skipped waitingHuman degraded =>
    have hinvoke : c.invoke { s with
          skipping := none
          clock := s.clock + (c.turn node.nodeId).toCheck } node
        = c.afterDone (c.markDone (Executing.handOver { s with
              skipping := none
              clock := s.clock + (c.turn node.nodeId).toCheck } node (c.turn node.nodeId).waits)
            node s.run.activeElapsedMs skipped degraded) node waitingHuman := by
      unfold invoke
      dsimp only
      rw [hout]
      exact c.complete_saved howned hartifact hsaved
    obtain ⟨hwclock, hwactive, hwsame⟩ := waitAll_spec (c.turn node.nodeId).waits
      { s with
        skipping := none
        clock := s.clock + (c.turn node.nodeId).toCheck }
    rw [hinvoke]
    -- from here on only the readings of `waited` matter
    generalize hwaited : Executing.handOver _ node _ = waited
    have hreading : waited.clock + (c.turn node.nodeId).work = c.endReading s node := by
      rw [← hwaited]
      exact congrArg (· + (c.turn node.nodeId).work) hwclock
    have hstarted : waited.activeStartedAt = s.activeStartedAt := by
      rw [← hwaited]
      exact hwsame.activeStartedAt
    have hactive : waited.run.activeElapsedMs
        = s.run.activeElapsedMs + recordedMs (c.turn node.nodeId).waits := by
      rw [← hwaited]
      exact hwactive
    have htime := @markDone_active c _ node _ _ skipped degraded hactive (by
      rw [hstarted, hreading]
      exact c.le_endReading node hclock)
    obtain ⟨hrun, hclock', hstarted', hboundary, hcharged⟩ := c.afterDone_time
      (c.markDone waited node s.run.activeElapsedMs skipped degraded) node waitingHuman
    refine ⟨hboundary.trans hreading, hcharged.trans (by rw [hrun]; rfl), ?_, ?_, ?_⟩
    · rw [hboundary, hstarted']
      exact Nat.le_add_right _ _
    · rw [hclock', hstarted']
      rfl
    · rw [hrun, ← hreading, ← hstarted]
      exact htime
  | _ =>
    rw [hout] at houtcome
    cases houtcome

/-! ## The other visits -/

/-- A node that does not come to its end. -/
theorem invoke_other {s : Executing} {node : PlanNode}
    (h : ¬ ((c.turn node.nodeId).outcome.returns = true ∧ (c.turn node.nodeId).owned = true ∧
      (c.turn node.nodeId).artifactSaved = true ∧ (c.turn node.nodeId).checkpointSaved = true)) :
    SameBoundary s (c.invoke s node) := by
  obtain ⟨_, _, hwaited⟩ := waitAll_spec (c.turn node.nodeId).waits s
  have hfailed : SameBoundary s (s.handOver node (c.turn node.nodeId).waits) :=
    ⟨hwaited.activeStartedAt, hwaited.boundary, hwaited.chargedAt, hwaited.clock, hwaited.active⟩
  unfold invoke
  dsimp only
  cases hout : (c.turn node.nodeId).outcome with
  | refused reason => exact ((SameBoundary.refl s).emit _).stop _ _
  | returned reason => exact (hfailed.emit _).stop _ _
  | crashed => exact (hfailed.emit _).stop _ _
  | retriesSpent => exact (hfailed.emit _).stop _ _
  | raised =>
    -- an optional node is passed over; its waits stay in the row
    dsimp only
    unfold raise
    dsimp only
    split
    · exact ⟨hfailed.activeStartedAt, hfailed.boundary, hfailed.chargedAt,
        Nat.le_trans hfailed.clock (Nat.le_add_right _ _), hfailed.active⟩
    · exact (hfailed.emit _).stop _ _
  | completed skipped waitingHuman degraded =>
    dsimp only
    unfold complete
    dsimp only
    split
    · exact (hfailed.emit _).stop _ _
    split
    · exact (hfailed.emit _).stop _ _
    split
    · exact (hfailed.emit _).stop _ _
    next howned hartifact hsaved =>
      rw [Bool.not_eq_false] at howned hartifact hsaved
      exact absurd ⟨by rw [hout]; rfl, howned, hartifact, hsaved⟩ h

/-- A check that stops, or a node that does not come to its end. -/
theorem check_other {s : Executing} {node : PlanNode}
    (h : ¬ (c.asks s node = .ok () ∧ (c.turn node.nodeId).checks.refusal s.run.runId = none ∧
      (c.turn node.nodeId).outcome.returns = true ∧ (c.turn node.nodeId).owned = true ∧
      (c.turn node.nodeId).artifactSaved = true ∧ (c.turn node.nodeId).checkpointSaved = true)) :
    SameBoundary s (c.check s node) := by
  have hlater : SameBoundary s { s with clock := s.clock + (c.turn node.nodeId).toCheck } :=
    ⟨rfl, rfl, rfl, Nat.le_add_right _ _, Nat.le_refl _⟩
  cases hasks : c.asks s node with
  | error code =>
    unfold asks at hasks
    unfold check
    dsimp only
    rw [hasks]
    exact hlater.stop _ _
  | ok u =>
    cases hrefusal : (c.turn node.nodeId).checks.refusal s.run.runId with
    | some refusal =>
      unfold asks at hasks
      unfold check
      dsimp only
      rw [hasks]
      dsimp only
      rw [hrefusal]
      exact (hlater.emit _).stop _ _
    | none =>
      rw [c.check_open hasks hrefusal]
      have hrest := c.invoke_other (s := { s with
        clock := s.clock + (c.turn node.nodeId).toCheck }) fun hend => h ⟨hasks, hrefusal, hend⟩
      exact ⟨hrest.activeStartedAt, hrest.boundary, hrest.chargedAt,
        Nat.le_trans (Nat.le_add_right _ _) hrest.clock, hrest.active⟩

theorem enter_other {s : Executing} {node : PlanNode}
    (h : ¬ ((node.nodeId ∈ s.completedNodeIds → node.safeToRerun = some true) ∧
      c.asks s node = .ok () ∧ (c.turn node.nodeId).checks.refusal s.run.runId = none ∧
      (c.turn node.nodeId).outcome.returns = true ∧ (c.turn node.nodeId).owned = true ∧
      (c.turn node.nodeId).artifactSaved = true ∧ (c.turn node.nodeId).checkpointSaved = true)) :
    SameBoundary s (c.enter s node) := by
  unfold enter
  split
  next hmem =>
    split
    · exact (SameBoundary.refl s).stop _ _
    · exact SameBoundary.refl s
    next htrue => exact c.check_other fun hend => h ⟨fun _ => htrue, hend⟩
  next hmem => exact c.check_other fun hend => h ⟨fun hin => absurd hin hmem, hend⟩

/-- A visit that does not complete its node. -/
theorem visit_other {s : Executing} {node : PlanNode} (h : ¬ c.Completes s node) :
    SameBoundary s (c.visit s node) := by
  unfold visit
  split
  · exact SameBoundary.refl s
  next hended =>
    have hopen : s.ended = none := by simpa using hended
    split
    next hskipping =>
      exact c.enter_other fun hend => h ⟨⟨hopen, Or.inl hskipping, hend.1⟩, hend.2⟩
    next target hskipping =>
      split
      next hnode =>
        have hrest := c.enter_other (s := { s with skipping := none }) fun hend =>
          h ⟨⟨hopen, Or.inr (by rw [hskipping, hnode]), hend.1⟩, hend.2⟩
        exact ⟨hrest.activeStartedAt, hrest.boundary, hrest.chargedAt, hrest.clock, hrest.active⟩
      · exact SameBoundary.refl s

/-! ## The time at the boundaries -/

/-- The row has the time since `t₀`, on top of what it started from. -/
def CountedOnce (active₀ : Nat) (t₀ : Time) (s : Executing) (node : PlanNode) : Prop :=
  c.Completes s node →
    1000 * (c.visit s node).run.activeElapsedMs + t₀ = 1000 * active₀ + (c.visit s node).boundary

/-- What has been added since the last boundary, for nodes that were passed
over, makes up for the time between the two readings at that boundary and for
the part of a millisecond that is cut off at this one. -/
def WaitsBalance (s : Executing) (node : PlanNode) : Prop :=
  c.Completes s node →
    1000 * s.run.activeElapsedMs + s.boundary
      = 1000 * s.chargedAt + s.activeStartedAt
        + (c.endReading s node - s.activeStartedAt) % 1000

/-- The row has had the time at the last boundary. -/
structure CountedSoFar (active₀ : Nat) (t₀ : Time) (s : Executing) : Prop where
  counted : 1000 * s.chargedAt + t₀ = 1000 * active₀ + s.boundary
  started : s.boundary ≤ s.activeStartedAt
  clock : s.activeStartedAt ≤ s.clock

theorem countedOnce_iff {active₀ : Nat} {t₀ : Time} {s : Executing}
    (hso : CountedSoFar active₀ t₀ s) (node : PlanNode) :
    c.CountedOnce active₀ t₀ s node ↔ c.WaitsBalance s node := by
  refine imp_congr_right fun hcompletes => ?_
  have hreached := c.visit_completes hcompletes hso.clock
  have hcounted := hso.counted
  have hactive := hreached.active
  have hend : s.activeStartedAt ≤ c.endReading s node :=
    Nat.le_trans (Nat.le_add_left _ _) (c.le_endReading node hso.clock)
  have hsub := Nat.sub_add_cancel hend
  rw [hreached.boundary]
  -- what is left is linear in the readings
  generalize (c.visit s node).run.activeElapsedMs = active at hactive ⊢
  generalize (c.endReading s node - s.activeStartedAt) % 1000 = cut at hactive ⊢
  generalize c.endReading s node - s.activeStartedAt = passed at hactive hsub
  omega

/-- The time stays in the row. -/
theorem countedSoFar_step {active₀ : Nat} {t₀ : Time} {s : Executing} {node : PlanNode}
    (hso : CountedSoFar active₀ t₀ s) (hcounted : c.CountedOnce active₀ t₀ s node) :
    CountedSoFar active₀ t₀ (c.visit s node) := by
  by_cases hcompletes : c.Completes s node
  · have hreached := c.visit_completes hcompletes hso.clock
    refine ⟨?_, hreached.startedAt, Nat.le_of_eq hreached.clock.symm⟩
    rw [hreached.chargedAt]
    exact hcounted hcompletes
  · have hsame := c.visit_other hcompletes
    refine ⟨?_, ?_, ?_⟩
    · rw [hsame.chargedAt, hsame.boundary]
      exact hso.counted
    · rw [hsame.boundary, hsame.activeStartedAt]
      exact hso.started
    · rw [hsame.activeStartedAt]
      exact Nat.le_trans hso.clock hsame.clock

/-! ## The time of an attempt -/

/-- The attempt as it comes to its first node, where it does. -/
def atFirstNode (p : Prologue) (run : AgentRun) (completedNodeIds : List String)
    (resumeFromNodeId : Option String) : Option Executing :=
  match StaticWorkflowGraph.orderedNodes c.plan.steps,
    fallbackTarget run c.plan resumeFromNodeId, p.refusal run.runId with
  | some _, some target, none =>
    some (((Executing.start run completedNodeIds.dedup target p.clock).emit
      (if target.isSome = true then [.clearErrorCode] else [])).emit [.markRunning, .setStarted])
  | _, _, _ => none

/-- From there the attempt is the visits of its nodes. -/
theorem execute_of_atFirstNode {p : Prologue} {run : AgentRun} {completedNodeIds : List String}
    {resumeFromNodeId : Option String} {s : Executing}
    (h : c.atFirstNode p run completedNodeIds resumeFromNodeId = some s) :
    c.execute p run completedNodeIds resumeFromNodeId = Runs.run c.visit s c.plan.steps ∧
      s.clock = p.clock ∧ CountedSoFar run.activeElapsedMs p.clock s := by
  unfold atFirstNode at h
  split at h
  next nodes target hgraph htarget hrefusal =>
    obtain ⟨rfl, _⟩ := StaticWorkflowGraph.orderedNodes_eq_some hgraph
    cases h
    refine ⟨?_, rfl, ⟨rfl, Nat.le_refl _, Nat.le_refl _⟩⟩
    unfold execute
    dsimp only
    rw [hgraph]
    dsimp only
    rw [htarget]
    dsimp only
    rw [hrefusal]
  · cases h

/-- At every boundary of the attempt the row has the time since its start. -/
def CountsActiveTime (p : Prologue) (run : AgentRun) (completedNodeIds : List String)
    (resumeFromNodeId : Option String) : Prop :=
  ∀ s ∈ c.atFirstNode p run completedNodeIds resumeFromNodeId,
    Along c.visit (c.CountedOnce run.activeElapsedMs s.clock) s c.plan.steps

/-- At every boundary of the attempt the waits of passed over nodes make up
for what is cut off. -/
def BalancesWaits (p : Prologue) (run : AgentRun) (completedNodeIds : List String)
    (resumeFromNodeId : Option String) : Prop :=
  ∀ s ∈ c.atFirstNode p run completedNodeIds resumeFromNodeId,
    Along c.visit c.WaitsBalance s c.plan.steps

end AttemptContext

/-- **The active time of an attempt** is counted once iff at every boundary
the waits of passed over nodes make up for what is cut off. -/
theorem active_time_counted_iff (c : AttemptContext) (p : Prologue) (run : AgentRun)
    (completedNodeIds : List String) (resumeFromNodeId : Option String) :
    c.CountsActiveTime p run completedNodeIds resumeFromNodeId ↔
      c.BalancesWaits p run completedNodeIds resumeFromNodeId := by
  unfold AttemptContext.CountsActiveTime AttemptContext.BalancesWaits
  refine forall₂_congr fun s hs => ?_
  obtain ⟨_, hclock, hso⟩ := c.execute_of_atFirstNode hs
  rw [hclock]
  exact along_iff (I := AttemptContext.CountedSoFar run.activeElapsedMs p.clock)
    (fun _ node hso => c.countedOnce_iff hso node)
    (fun _ _ hso hcounted => c.countedSoFar_step hso hcounted) c.plan.steps s hso

/-! ## A wait that is counted twice -/

/-- The work is published, music is attempted, and the end is told. -/
def musicPlan : AgentPlan :=
  { runId := "run-1"
    steps := [{ nodeId := "publish_document" }, { nodeId := "music", optional := true },
      { nodeId := "notify" }]
    stopConditions := defaultStopConditions
    fallbackPolicy := {} }

/-- The music waits five seconds for its provider, and fails. -/
def failingMusic : AttemptContext :=
  { plan := musicPlan
    executionAttempt := 1
    turn := fun nodeId =>
      if nodeId = "music" then
        { waits := [{ before := 0, length := seconds 5, recorded := true }], outcome := .raised }
      else {} }

/-- A run that has not been active. -/
def idleRun : AgentRun :=
  { fallbackRun with errorCode := none }

/-- The attempt goes through in five seconds, and ten are in the row. -/
theorem failed_wait_counted_twice :
    ¬ failingMusic.CountsActiveTime {} idleRun [] none ∧
    (failingMusic.fresh {} idleRun).boundary = seconds 5 ∧
    (failingMusic.fresh {} idleRun).run.activeElapsedMs = 10000 := by
  refine ⟨fun hcounts => ?_, by decide +kernel, by decide +kernel⟩
  obtain ⟨_, _, hcounted, _⟩ := hcounts _ rfl
  have htwice := hcounted ⟨⟨by decide +kernel, Or.inl (by decide +kernel), by decide +kernel⟩,
    by decide +kernel, by rfl, rfl, rfl, rfl, rfl⟩
  revert htwice
  decide +kernel

end AgentRuntime
