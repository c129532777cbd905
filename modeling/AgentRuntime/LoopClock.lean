import AgentRuntime.LoopContract

/-!
# The active time of a loop

The time a run has been active is recorded in milliseconds, at the boundaries
of its nodes and where a call has waited; `active_started_at` is the reading
of the monotonic clock at the last boundary. A turn of the loop hands
`monotonic() - active_started_at` to `recompute_loop_remaining` as
`loop_elapsed_ms`. The difference is in seconds, where every other use of it
multiplies by a thousand; so the turn adds whole seconds to a ledger of
milliseconds, and the loop goes past its limit exactly where nothing else
stops it and the limit lies between the two (`LimitNoticed`).

A `ClockedRound` is a turn with its reading of the clock, which may be any.
-/

namespace AgentRuntime

open Keyed Runs

/-- A turn of a loop, with the reading of the monotonic clock before its
budget is recomputed. -/
structure ClockedRound (q : String) where
  round : Round q
  reading : Time

/-- `int((monotonic() - active_started_at) * 1000)`. -/
def elapsedMs (activeStartedAt reading : Time) : Nat :=
  (reading - activeStartedAt) / 1000

/-- `int(loop_elapsed_ms)` for `monotonic() - active_started_at`. -/
def elapsedPassed (activeStartedAt reading : Time) : Nat :=
  (reading - activeStartedAt) / seconds 1

/-- The turn as the loop runs it. -/
def ClockedRound.asRun {q : String} (c : ClockedRound q) (activeStartedAt : Time) : Round q :=
  { c.round with elapsedMs := elapsedPassed activeStartedAt c.reading }

namespace WorkflowExecutor

/-- The run and its limits, as a turn finds them. -/
structure FoundRun where
  run : AgentRun
  usages : UsageTable
  limits : FrozenLimits

/-- What an open loop finds once the safety checks of the turn have passed. -/
def foundRun (d : Deployment) {q : String} (s : LoopState) (r : Round q) : Option FoundRun :=
  if s.closed then none
  else
    match loopSafetyCheck d q r.draining (s.gateway.meanwhile d.limits r.meanwhile) s.lease with
    | (_, _, some _) => none
    | (g, _, none) =>
      (g.sys.db.runs.find? q).bind fun run =>
        (BoundedLoop.frozenLimits run).map fun limits => ⟨run, g.usages, limits⟩

namespace FoundRun

/-- The recorded active time and `ms` more reach the limit. -/
def OverLimit (f : FoundRun) (ms : Nat) : Prop :=
  f.limits.maxSeconds * 1000 ≤ f.run.activeElapsedMs + ms

instance (f : FoundRun) (ms : Nat) : Decidable (f.OverLimit ms) := by
  unfold OverLimit; infer_instance

/-- Another allowance of the loop is used up. -/
def OtherSpent (f : FoundRun) (budget : InheritedLoopBudget) (iterations : Nat) : Prop :=
  let live := BoundedLoop.remaining f.limits f.run f.usages 0 budget.maxIterations
  live.remainingModelCalls ≤ 0 ∨ live.remainingTokens ≤ 0 ∨ live.remainingCost ≤ 0 ∨
    budget.maxIterations ≤ iterations

instance (f : FoundRun) (budget : InheritedLoopBudget) (iterations : Nat) :
    Decidable (f.OtherSpent budget iterations) := by
  unfold OtherSpent; infer_instance

end FoundRun

variable {d : Deployment} {budget : InheritedLoopBudget} {q : String}

/-- The loop has stopped on its budget. -/
def StoppedOnBudget (s : LoopState) : Prop :=
  s.closed = true ∧ s.progress.exhausted = true ∧
    s.progress.reasonCode = some "LOOP_BUDGET_EXHAUSTED"

/-- What a turn does that has found its run: it runs the body where nothing
is used up, and else stops on the budget. -/
theorem enterIteration_found (budget : InheritedLoopBudget) {s : LoopState} {r : Round q}
    {f : FoundRun}
    (h : foundRun d s r = some f) :
    (¬ (f.OtherSpent budget s.progress.iterations ∨ f.OverLimit r.elapsedMs) ∧
      Executes d budget s r) ∨
    ((f.OtherSpent budget s.progress.iterations ∨ f.OverLimit r.elapsedMs) ∧
      ¬ Executes d budget s r ∧ StoppedOnBudget (enterIteration d budget s r).1) := by
  unfold foundRun at h
  unfold Executes enterIteration
  cases hclosed : s.closed with
  | true =>
    rw [hclosed, if_pos rfl] at h
    cases h
  | false =>
    rw [hclosed, if_neg (by simp)] at h
    rw [if_neg (by simp)]
    rcases hcheck : loopSafetyCheck d q r.draining (s.gateway.meanwhile d.limits r.meanwhile)
      s.lease with ⟨g, lease, early⟩
    rw [hcheck] at h
    cases early with
    | some result => cases h
    | none =>
      dsimp only at h ⊢
      obtain ⟨run, hrun, h⟩ := Option.bind_eq_some_iff.mp h
      obtain ⟨limits, hlimits, rfl⟩ := Option.map_eq_some_iff.mp h
      have hlive : (g.sys.db.runs.find? q).bind (fun run =>
          BoundedLoop.recomputeLoopRemaining run g.usages budget r.elapsedMs)
          = some (BoundedLoop.remaining limits run g.usages r.elapsedMs budget.maxIterations) := by
        rw [hrun]
        show (BoundedLoop.frozenLimits run).map _ = _
        rw [hlimits]
        rfl
      have hspent : ((BoundedLoop.remaining limits run g.usages r.elapsedMs
            budget.maxIterations).Spent ∨ budget.maxIterations ≤ s.progress.iterations) ↔
          (FoundRun.OtherSpent ⟨run, g.usages, limits⟩ budget s.progress.iterations ∨
            FoundRun.OverLimit ⟨run, g.usages, limits⟩ r.elapsedMs) := by
        unfold InheritedLoopBudget.Spent FoundRun.OtherSpent FoundRun.OverLimit
          BoundedLoop.remaining
        dsimp only
        constructor
        · rintro ((h | h | h | h) | h)
          · exact Or.inl (Or.inl h)
          · exact Or.inl (Or.inr (Or.inl h))
          · exact Or.inl (Or.inr (Or.inr (Or.inl h)))
          · exact Or.inr (by omega)
          · exact Or.inl (Or.inr (Or.inr (Or.inr h)))
        · rintro ((h | h | h | h) | h)
          · exact Or.inl (Or.inl h)
          · exact Or.inl (Or.inr (Or.inl h))
          · exact Or.inl (Or.inr (Or.inr (Or.inl h)))
          · exact Or.inr h
          · exact Or.inl (Or.inr (Or.inr (Or.inr (by omega))))
      rw [hlive]
      dsimp only
      by_cases hstop : (BoundedLoop.remaining limits run g.usages r.elapsedMs
          budget.maxIterations).Spent ∨ budget.maxIterations ≤ s.progress.iterations
      · rw [if_pos hstop]
        exact Or.inr ⟨hspent.mp hstop, by simp, rfl, rfl, rfl⟩
      · rw [if_neg hstop]
        exact Or.inl ⟨fun h => hstop (hspent.mpr h), rfl⟩

/-- A turn that runs its body has found its run. -/
theorem found_of_executes {s : LoopState} {r : Round q} (h : Executes d budget s r) :
    ∃ f, foundRun d s r = some f := by
  unfold Executes enterIteration at h
  unfold foundRun
  cases hclosed : s.closed with
  | true =>
    rw [hclosed, if_pos rfl] at h
    cases h
  | false =>
    rw [hclosed, if_neg (by simp)] at h
    rw [if_neg (by simp)]
    rcases hcheck : loopSafetyCheck d q r.draining (s.gateway.meanwhile d.limits r.meanwhile)
      s.lease with ⟨g, lease, early⟩
    rw [hcheck] at h
    cases early with
    | some result => cases h
    | none =>
      dsimp only at h ⊢
      cases hrun : g.sys.db.runs.find? q with
      | none =>
        rw [hrun] at h
        cases h
      | some run =>
        rw [hrun] at h
        cases hlimits : BoundedLoop.frozenLimits run with
        | none =>
          have hnone : (some run).bind (fun run =>
              BoundedLoop.recomputeLoopRemaining run g.usages budget r.elapsedMs) = none := by
            show (BoundedLoop.frozenLimits run).map _ = none
            rw [hlimits]
            rfl
          rw [hnone] at h
          cases h
        | some limits =>
          exact ⟨⟨run, g.usages, limits⟩, by
            show (BoundedLoop.frozenLimits run).map _ = _
            rw [hlimits]
            rfl⟩

/-! ## Turns under a clock -/

/-- One turn of the loop of an executor whose last boundary was at
`activeStartedAt`. -/
def clockedStep (d : Deployment) (budget : InheritedLoopBudget) (activeStartedAt : Time)
    (s : LoopState) (c : ClockedRound q) : LoopState :=
  loopStep d budget s (c.asRun activeStartedAt)

/-- The turn respects the active-time limit: it runs the body only below
it, and stops the loop on its budget where the limit is reached. -/
def KeepsActiveLimit (d : Deployment) (budget : InheritedLoopBudget) (activeStartedAt : Time)
    (s : LoopState) (c : ClockedRound q) : Prop :=
  (Executes d budget s (c.asRun activeStartedAt) →
    ∃ f ∈ foundRun d s c.round, ¬ f.OverLimit (elapsedMs activeStartedAt c.reading)) ∧
  ∀ f ∈ foundRun d s c.round, f.OverLimit (elapsedMs activeStartedAt c.reading) →
    StoppedOnBudget (clockedStep d budget activeStartedAt s c)

/-- Where the limit is reached, the seconds taken for milliseconds reach it
too, or something else stops the loop. -/
def LimitNoticed (d : Deployment) (budget : InheritedLoopBudget) (activeStartedAt : Time)
    (s : LoopState) (c : ClockedRound q) : Prop :=
  ∀ f ∈ foundRun d s c.round, f.OverLimit (elapsedMs activeStartedAt c.reading) →
    f.OtherSpent budget s.progress.iterations ∨
      f.OverLimit (elapsedPassed activeStartedAt c.reading)

theorem keepsActiveLimit_iff {activeStartedAt : Time} {s : LoopState} {c : ClockedRound q} :
    KeepsActiveLimit d budget activeStartedAt s c ↔
      LimitNoticed d budget activeStartedAt s c := by
  have hsame : foundRun d s (c.asRun activeStartedAt) = foundRun d s c.round := rfl
  constructor
  · rintro ⟨hbelow, _⟩ f hf hreached
    rcases enterIteration_found budget (hsame.trans hf) with
      ⟨_, hexec⟩ | ⟨hstop, _, _⟩
    · obtain ⟨f', hf', hnot⟩ := hbelow hexec
      cases hf.symm.trans hf'
      exact absurd hreached hnot
    · exact hstop
  · intro hnoticed
    refine ⟨fun hexec => ?_, fun f hf hreached => ?_⟩
    · obtain ⟨f, hf⟩ := found_of_executes hexec
      refine ⟨f, hsame.symm.trans hf, fun hreached => ?_⟩
      rcases enterIteration_found budget hf with ⟨hgoes, _⟩ | ⟨_, hnot, _⟩
      · exact hgoes (hnoticed f (hsame.symm.trans hf) hreached)
      · exact hnot hexec
    · rcases enterIteration_found budget (hsame.trans hf) with
        ⟨hgoes, _⟩ | ⟨_, hnot, hstopped⟩
      · exact absurd (hnoticed f hf hreached) hgoes
      · show StoppedOnBudget (loopStep d budget s (c.asRun activeStartedAt))
        rw [loopStep_of_not_executes hnot]
        exact hstopped

/-- In every run of the loop: an iteration starts only below the active-time
limit of its run and a loop that has reached it stops on its budget, if and
only if at every turn that finds the limit reached, the seconds elapsed since
the last boundary, taken for milliseconds, reach it as well, or another
allowance of the loop is used up. -/
theorem active_limit_kept (d : Deployment) (budget : InheritedLoopBudget) (q : String)
    (g : Gateway) (lease : LeaseContext) (scenes : List Scene) (activeStartedAt : Time)
    (rounds : List (ClockedRound q)) :
    Along (clockedStep d budget activeStartedAt) (KeepsActiveLimit d budget activeStartedAt)
      (LoopState.start g lease scenes) rounds ↔
    Along (clockedStep d budget activeStartedAt) (LimitNoticed d budget activeStartedAt)
      (LoopState.start g lease scenes) rounds :=
  along_congr (M := fun _ _ => True) (fun _ _ _ => keepsActiveLimit_iff) rounds _
    (along_of_inv (I := fun _ => True) (fun _ _ _ => trivial) (fun _ _ _ => trivial) rounds _
      trivial)

end WorkflowExecutor

/-! ## A loop that runs past its limit -/

/-- Somebody else's claim of no run: time passes. -/
def minutePasses : Meanwhile := .lifecycle (after 60 (.claim "run-2" "worker-2" 90))

/-- The turn `n` minutes after the boundary. -/
def minuteRound (n : Nat) : ClockedRound "run-1" where
  round := { meanwhile := [minutePasses], result := some { outcome := .goesOn } }
  reading := seconds (60 * n)

/-- The turns of the first nine minutes. -/
def nineMinutes : List (ClockedRound "run-1") :=
  (List.range 9).map fun n => minuteRound (n + 1)

open WorkflowExecutor in
/-- The loop of a run that may take ten minutes starts another turn after
ten minutes. -/
theorem loop_overruns_limit :
    (loopingRun.db.runs.find? "run-1").bind BoundedLoop.frozenLimits
        = some { maxCalls := 10, maxTokens := 1000, maxCost := 1, maxSeconds := 600 } ∧
    Executes loopDeployment loopBudget
      (run (clockedStep loopDeployment loopBudget 0) loopEntered nineMinutes)
      ((minuteRound 10).asRun 0) ∧
    ¬ Along (clockedStep loopDeployment loopBudget 0)
      (KeepsActiveLimit loopDeployment loopBudget 0) loopEntered
      (nineMinutes ++ [minuteRound 10]) := by
  have hexec : Executes loopDeployment loopBudget
      (run (clockedStep loopDeployment loopBudget 0) loopEntered nineMinutes)
      ((minuteRound 10).asRun 0) := by
    unfold Executes
    decide +kernel
  have hreached : ∀ f ∈ foundRun loopDeployment
      (run (clockedStep loopDeployment loopBudget 0) loopEntered nineMinutes)
      (minuteRound 10).round, f.OverLimit (elapsedMs 0 (minuteRound 10).reading) := by
    decide +kernel
  refine ⟨by decide +kernel, hexec, fun h => ?_⟩
  obtain ⟨f, hf, hbelow⟩ := ((along_append nineMinutes _ _).mp h).2.1.1 hexec
  exact hbelow (hreached f hf)

end AgentRuntime
