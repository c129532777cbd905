import AgentRuntime.LoopClock

/-!
# How a bounded loop ends

`_run_bounded_loop_node` from the check of its policy to its outcome, over any
runner: a stream of turns, and then what `finalize_loop` returns. A turn that
runs its body counts it as an iteration or leaves the loop (`loopStep_counts`),
and none runs its body once as many iterations are counted as the run had
model calls left; so the loop is left after one turn more at the latest.

`bounded_loop_meets`: the loop terminates, runs its body within the calls that
were left, and is complete only if every body has returned with nothing wrong
and the last of them has said that it is done.

Mirroring notes:
- `while True` is cut off after one turn more than the iterations that may be;
  `turns_left` says that the loop has been left by then.
- An exception of `recompute_loop_remaining` leaves the node (`raised`).
- `finalize_loop` may make calls; what the ledger is then is the world's.
-/

namespace AgentRuntime

open Keyed Gateway Runs

/-- `loop_policy` of a node, the entries that are read; `bodyNodeIds` is none
where it is not a list of strings. -/
structure LoopPolicyJson where
  budgetStrategy : Option String := some "inherit_run_limits_v1"
  mergeStrategy : Option String := some "append_unique_by_key"
  mergeKey : Option String := some "scene_id"
  onIterationError : Option String := some "continue"
  onBudgetExhausted : Option String
  bodyNodeIds : Option (List String)
  deriving DecidableEq, Repr

/-- `loop_summary`. -/
structure LoopSummary where
  iterations : Nat
  outcome : LoopOutcome
  reasonCode : String
  outputCount : Nat
  coverageCount : Nat
  modelCallsUsed : Nat
  deriving DecidableEq, Repr

/-- `_LoopNodeOutcome`, or an exception. -/
inductive LoopNodeOutcome
  | early (result : AgentRunResult)
  | concluded (summary : LoopSummary)
  | raised
  deriving DecidableEq

/-- What the runner and the world do at a loop node of the run `q`. -/
structure LoopWorld (q : String) where
  policy : Option LoopPolicyJson
  supported : Bool := true
  begins : Bool := true
  rounds : Nat → Round q
  final : Option LoopIterationResult
  usagesAfter : UsageTable

namespace BoundedLoop

/-- `validated_loop_policy`. -/
def validatedLoopPolicy (policy : LoopPolicyJson) : Option LoopPolicyJson :=
  if policy.budgetStrategy = some "inherit_run_limits_v1" ∧
      policy.mergeStrategy = some "append_unique_by_key" ∧ policy.mergeKey = some "scene_id" ∧
      policy.onIterationError = some "continue" ∧
      (policy.onBudgetExhausted = some "partial" ∨ policy.onBudgetExhausted = some "failed") ∧
      ∃ ids ∈ policy.bodyNodeIds, ids ≠ [] ∧ ∀ id ∈ ids, id ≠ "" then some policy
  else none

end BoundedLoop

namespace WorkflowExecutor

/-! ## The outcome of a loop that has been left -/

/-- A reason that says something. -/
def givenReason (code : Option String) : Option String :=
  code.filter (fun code => decide (code ≠ ""))

/-- `_bounded_loop_outcome`. -/
def boundedLoopOutcome (progress : LoopProgress) (final : LoopIterationResult)
    (usageBefore usageNow : Nat) : LoopSummary :=
  let outcome :=
    if progress.exhausted = true ∨ progress.declaredPartial = true ∨
        0 < progress.iterationErrors ∨ final.outcome = .incomplete then .incomplete
    else .complete
  { iterations := progress.iterations
    outcome := outcome
    reasonCode := ((givenReason progress.reasonCode).or (givenReason final.reasonCode)).getD
      (if outcome = .complete then "LOOP_COMPLETE" else "LOOP_PARTIAL")
    outputCount := progress.outputCount
    coverageCount := progress.coverageCount
    modelCallsUsed := usageNow - usageBefore }

/-- `_finalize_bounded_loop`. -/
def finalizeBoundedLoop (q : String) (policy : LoopPolicyJson) (progress : LoopProgress)
    (final : Option LoopIterationResult) (usageBefore usageNow : Nat) : LoopNodeOutcome :=
  if progress.exhausted = true ∧ policy.onBudgetExhausted = some "failed" then
    .early (fail q "LOOP_BUDGET_EXHAUSTED")
  else
    match final with
    | none => .early (fail q "LOOP_BODY_FAILED")
    | some result =>
      if result.outcome ≠ .complete ∧ result.outcome ≠ .incomplete then
        .early (fail q "LOOP_BODY_FAILED")
      else .concluded (boundedLoopOutcome progress result usageBefore usageNow)

/-! ## The turns -/

section
variable (d : Deployment) (budget : InheritedLoopBudget) {q : String}

/-- The loop after `n` turns. -/
def turns (rounds : Nat → Round q) (s : LoopState) : Nat → LoopState
  | 0 => s
  | n + 1 => loopStep d budget (turns rounds s n) (rounds n)

instance (s : LoopState) (r : Round q) : Decidable (Executes d budget s r) := by
  unfold Executes; infer_instance

/-- How many of the first `n` turns have run the body. -/
def invocations (rounds : Nat → Round q) (s : LoopState) : Nat → Nat
  | 0 => 0
  | n + 1 => invocations rounds s n +
      if Executes d budget (turns d budget rounds s n) (rounds n) then 1 else 0

end

/-- The loop was left by an exception. -/
def LeftByException (progress : LoopProgress) : Prop :=
  progress.early = none ∧ progress.exhausted = false ∧ progress.reasonCode = none

instance (progress : LoopProgress) : Decidable (LeftByException progress) := by
  unfold LeftByException; infer_instance

/-- `_run_bounded_loop_node`, for the row of its run. -/
def runBoundedLoopNode (d : Deployment) (run : AgentRun) (g : Gateway) (lease : LeaseContext)
    (scenes : List Scene) (w : LoopWorld run.runId) : LoopNodeOutcome :=
  match w.policy.bind BoundedLoop.validatedLoopPolicy with
  | none => .early (fail run.runId "LOOP_POLICY_INVALID")
  | some policy =>
    match BoundedLoop.deriveInheritedBudget run g.usages with
    | .error code => .early (fail run.runId code)
    | .ok budget =>
      if w.supported = false then .early (fail run.runId "LOOP_RUNNER_UNSUPPORTED")
      else if w.begins = false then .early (fail run.runId "LOOP_BODY_FAILED")
      else
        -- `while True`: see `turns_left`
        let progress := (turns d budget w.rounds (LoopState.start g lease scenes)
          (budget.maxIterations.toNat + 1)).progress
        if LeftByException progress then .raised
        else
          match progress.early with
          | some result => .early result
          | none =>
            finalizeBoundedLoop run.runId policy progress w.final
              (BoundedLoop.usageSnapshot g.usages run.runId).1
              (BoundedLoop.usageSnapshot w.usagesAfter run.runId).1

variable {d : Deployment} {budget : InheritedLoopBudget} {q : String}

/-! ## One turn -/

/-- Nothing has been concluded while the loop is open. -/
def Undecided (s : LoopState) : Prop :=
  s.closed = false → s.progress.early = none ∧ s.progress.exhausted = false ∧
    s.progress.declaredPartial = false ∧ s.progress.reasonCode = none

/-- What a body does to an open loop: it is counted and the loop goes on, or
the loop is left. -/
theorem runIteration_counts (s : LoopState) (r : Round q) :
    (runIteration d s r).closed = true ∨
      ((runIteration d s r).closed = s.closed ∧
        (runIteration d s r).progress.iterations = s.progress.iterations + 1) := by
  unfold runIteration
  cases r.result with
  | none => exact Or.inr ⟨rfl, rfl⟩
  | some result =>
    dsimp only
    split
    · exact Or.inl rfl
    · unfold concludeIteration
      dsimp only
      split
      · exact Or.inl rfl
      split
      · exact Or.inr ⟨rfl, rfl⟩
      · exact Or.inl rfl

/-- A turn that runs its body finds fewer iterations than there may be. -/
theorem iterations_lt_of_executes {s : LoopState} {r : Round q} (h : Executes d budget s r) :
    (s.progress.iterations : Int) < budget.maxIterations ∧
      ∃ f ∈ foundRun d s r,
        ((BoundedLoop.usageSnapshot f.usages f.run.runId).1 : Int) < f.limits.maxCalls := by
  obtain ⟨f, hf⟩ := found_of_executes h
  rcases enterIteration_found budget hf with ⟨hgoes, _⟩ | ⟨_, hnot, _⟩
  · -- neither the iterations nor the calls of the run are spent
    have hother : ¬ f.OtherSpent budget s.progress.iterations := fun h => hgoes (Or.inl h)
    unfold FoundRun.OtherSpent at hother
    simp only [not_or, not_le] at hother
    obtain ⟨hcalls, _, _, hiterations⟩ := hother
    refine ⟨hiterations, f, hf, ?_⟩
    unfold BoundedLoop.remaining at hcalls
    dsimp only at hcalls
    omega
  · exact absurd h hnot

/-- A turn runs the body of an open loop and counts it or leaves the loop, or
the loop has been left. -/
theorem loopStep_counts (s : LoopState) (r : Round q) :
    (Executes d budget s r ∧ s.closed = false ∧
      ((loopStep d budget s r).closed = true ∨
        (loopStep d budget s r).progress.iterations = s.progress.iterations + 1)) ∨
    (¬ Executes d budget s r ∧ (loopStep d budget s r).closed = true) := by
  rcases enterIteration_cases d budget s r with
    ⟨hexec, hopen, hprogress, _⟩ | ⟨hnot, hclosed, _⟩
  · refine Or.inl ⟨hexec, hopen, ?_⟩
    rw [loopStep_of_executes hexec]
    refine (runIteration_counts _ r).imp_right fun h => ?_
    rw [h.2, hprogress]
  · refine Or.inr ⟨hnot, ?_⟩
    rw [loopStep_of_not_executes hnot]
    exact hclosed

theorem open_of_executes {s : LoopState} {r : Round q} (h : Executes d budget s r) :
    s.closed = false := by
  rcases enterIteration_cases d budget s r with ⟨_, hopen, _⟩ | ⟨hnot, _⟩
  · exact hopen
  · exact absurd h hnot

/-- A loop that has been left stays as it is. -/
theorem loopStep_closed {s : LoopState} (h : s.closed = true) (r : Round q) :
    loopStep d budget s r = s := by
  unfold loopStep enterIteration
  rw [if_pos h]

/-! ## All turns -/

variable {rounds : Nat → Round q} {s : LoopState}

theorem turns_closed {n : Nat} (h : (turns d budget rounds s n).closed = true) :
    ∀ m, n ≤ m → turns d budget rounds s m = turns d budget rounds s n := by
  intro m hm
  induction m, hm using Nat.le_induction with
  | base => rfl
  | succ m _ ih =>
    show loopStep d budget (turns d budget rounds s m) (rounds m) = _
    rw [ih]
    exact loopStep_closed h _

/-- Every turn of an open loop has been counted. -/
theorem turns_counts (hstart : s.progress.iterations = 0) :
    ∀ n, (turns d budget rounds s n).closed = true ∨
      (turns d budget rounds s n).progress.iterations = n
  | 0 => Or.inr hstart
  | n + 1 => by
    unfold turns
    rcases @loopStep_counts d budget _ (turns d budget rounds s n) (rounds n) with
      ⟨_, hopen, hclosed | hcounted⟩ | ⟨_, hclosed⟩
    · exact Or.inl hclosed
    · rcases turns_counts hstart n with hclosed | hn
      · rw [hclosed] at hopen
        cases hopen
      · exact Or.inr (by rw [hcounted, hn])
    · exact Or.inl hclosed

/-- **The loop is left** after one turn more than the iterations that may
be. -/
theorem turns_left (hstart : s.progress.iterations = 0) :
    (turns d budget rounds s (budget.maxIterations.toNat + 1)).closed = true := by
  rcases @turns_counts d budget _ rounds _ hstart
    budget.maxIterations.toNat with hclosed | hall
  · rw [turns_closed hclosed _ (Nat.le_succ _)]
    exact hclosed
  · -- as many are counted as there may be, and so the next turn runs no body
    rcases @loopStep_counts d budget _
      (turns d budget rounds s budget.maxIterations.toNat)
      (rounds budget.maxIterations.toNat) with ⟨hexec, _⟩ | ⟨_, hclosed⟩
    · have hlt := (iterations_lt_of_executes hexec).1
      rw [hall] at hlt
      omega
    · exact hclosed

/-- **The body runs** at most as often as there may be iterations. -/
theorem invocations_le (hstart : s.progress.iterations = 0) :
    ∀ n, ((turns d budget rounds s n).closed = false → invocations d budget rounds s n
        = (turns d budget rounds s n).progress.iterations) ∧
      invocations d budget rounds s n ≤ budget.maxIterations.toNat
  | 0 => ⟨fun _ => hstart.symm, Nat.zero_le _⟩
  | n + 1 => by
    obtain ⟨hcount, hle⟩ := invocations_le hstart n
    unfold invocations
    rcases @loopStep_counts d budget _ (turns d budget rounds s n) (rounds n) with
      ⟨hexec, hopen, hafter⟩ | ⟨hnot, hclosed⟩
    · rw [if_pos hexec]
      have hlt := (iterations_lt_of_executes hexec).1
      have hsame := hcount hopen
      refine ⟨fun hopen' => ?_, by omega⟩
      rcases hafter with hclosed | hcounted
      · have hcontra := hclosed.symm.trans hopen'
        cases hcontra
      · unfold turns
        rw [hcounted, hsame]
    · rw [if_neg hnot]
      refine ⟨fun hopen' => ?_, hle⟩
      have hcontra := hclosed.symm.trans hopen'
      cases hcontra

/-! ## What is left behind -/

/-- Nothing has gone wrong in any turn. -/
structure Clean (progress : LoopProgress) : Prop where
  early : progress.early = none
  errors : progress.iterationErrors = 0
  whole : progress.declaredPartial = false

/-- The body has returned, and goes on or is done. -/
def ReturnsWell (r : Round q) : Prop :=
  ∃ result, r.result = some result ∧ (result.outcome = .goesOn ∨ result.outcome = .complete)

/-- The body has said that it is done. -/
def SaysComplete (r : Round q) : Prop :=
  ∃ result, r.result = some result ∧ result.outcome = .complete

/-- A turn that does not run its body leaves the loop with what it was, or
with an early result, or with its budget exhausted. -/
theorem enterIteration_progress {s : LoopState} {r : Round q} (h : ¬ Executes d budget s r) :
    (enterIteration d budget s r).1.progress = s.progress ∨
      (∃ result, (enterIteration d budget s r).1.progress.early = some result) ∨
      (enterIteration d budget s r).1.progress
        = { s.progress with exhausted := true, reasonCode := some "LOOP_BUDGET_EXHAUSTED" } := by
  unfold Executes at h
  revert h
  unfold enterIteration
  split
  · exact fun _ => Or.inl rfl
  split
  · exact fun _ => Or.inr (Or.inl ⟨_, rfl⟩)
  dsimp only
  split
  · exact fun _ => Or.inl rfl
  split
  · exact fun _ => Or.inr (Or.inr rfl)
  · exact fun h => absurd rfl h

/-- What a body leaves behind of a loop in which nothing was concluded. -/
theorem runIteration_verdict {s : LoopState} (hopen : s.closed = false) (hs : Undecided s)
    (r : Round q) :
    Undecided (runIteration d s r) ∧
      (Clean (runIteration d s r).progress → Clean s.progress ∧ ReturnsWell r) ∧
      (Clean (runIteration d s r).progress → (runIteration d s r).progress.reasonCode ≠ none →
        SaysComplete r) := by
  obtain ⟨hearly, hexhausted, hwhole, hreason⟩ := hs hopen
  unfold runIteration
  cases hresult : r.result with
  | none =>
    exact ⟨fun _ => ⟨hearly, hexhausted, hwhole, hreason⟩, fun h => (nomatch h.errors),
      fun h => (nomatch h.errors)⟩
  | some result =>
    dsimp only
    split
    · exact ⟨fun h => (nomatch h), fun h => (nomatch h.early), fun h => (nomatch h.early)⟩
    unfold concludeIteration
    dsimp only
    split
    · exact ⟨fun h => (nomatch h), fun h => (nomatch h.early), fun h => (nomatch h.early)⟩
    next hfailed =>
    split
    next hgoes =>
      exact ⟨fun _ => ⟨hearly, hexhausted, hwhole, hreason⟩,
        fun h => ⟨⟨hearly, h.errors, hwhole⟩, result, hresult, Or.inl hgoes⟩,
        fun _ h => absurd hreason h⟩
    next hgoes =>
      -- a body that neither goes on nor fails declares a whole or a partial result
      have hdone : decide (result.outcome = .incomplete) = false → result.outcome = .complete := by
        intro hnot
        have hnot := of_decide_eq_false hnot
        cases hout : result.outcome with
        | goesOn => exact absurd hout hgoes
        | complete => rfl
        | incomplete => exact absurd hout hnot
        | failed => exact absurd hout hfailed
      exact ⟨fun h => (nomatch h),
        fun h => ⟨⟨hearly, h.errors, hwhole⟩, result, hresult, Or.inr (hdone h.whole)⟩,
        fun h _ => ⟨result, hresult, hdone h.whole⟩⟩

/-- What a turn leaves behind. -/
theorem loopStep_verdict {s : LoopState} (hs : Undecided s) (r : Round q) :
    Undecided (loopStep d budget s r) ∧
      (Clean (loopStep d budget s r).progress →
        Clean s.progress ∧ (Executes d budget s r → ReturnsWell r)) ∧
      (Clean (loopStep d budget s r).progress →
        (loopStep d budget s r).progress.exhausted = false →
        (loopStep d budget s r).progress.reasonCode ≠ none →
        (s.progress.exhausted = false ∧ s.progress.reasonCode ≠ none) ∨
          (Executes d budget s r ∧ SaysComplete r)) := by
  rcases enterIteration_cases d budget s r with
    ⟨hexec, hopen, hprogress, hopen'⟩ | ⟨hnot, hclosed, _⟩
  · rw [loopStep_of_executes hexec]
    have hs' : Undecided (enterIteration d budget s r).1 := by
      intro _
      rw [hprogress]
      exact hs hopen
    obtain ⟨hundecided, hclean, hsays⟩ := runIteration_verdict (d := d) hopen' hs' r
    refine ⟨hundecided, fun h => ?_, fun h _ hreason => Or.inr ⟨hexec, hsays h hreason⟩⟩
    obtain ⟨hbefore, hreturns⟩ := hclean h
    rw [hprogress] at hbefore
    exact ⟨hbefore, fun _ => hreturns⟩
  · rw [loopStep_of_not_executes hnot]
    have hopen : (enterIteration d budget s r).1.closed ≠ false := by
      rw [hclosed]
      exact fun h => (nomatch h)
    -- the three ways to leave the loop without a body
    rcases enterIteration_progress hnot with hsame | ⟨result, hearly⟩ | hexhausted
    · rw [hsame]
      exact ⟨fun h => absurd h hopen, fun h => ⟨h, fun hexec => absurd hexec hnot⟩,
        fun _ hlasts hreason => Or.inl ⟨hlasts, hreason⟩⟩
    · have hnotClean : ¬ Clean (enterIteration d budget s r).1.progress := by
        intro h
        have hcontra := hearly.symm.trans h.early
        cases hcontra
      exact ⟨fun h => absurd h hopen, fun h => absurd h hnotClean, fun h => absurd h hnotClean⟩
    · rw [hexhausted]
      exact ⟨fun h => absurd h hopen,
        fun h => ⟨⟨h.early, h.errors, h.whole⟩, fun hexec => absurd hexec hnot⟩,
        fun _ hlasts => (nomatch hlasts)⟩

/-! ## The whole loop -/

theorem turns_undecided (hs : Undecided s) : ∀ n, Undecided (turns d budget rounds s n)
  | 0 => hs
  | n + 1 => (loopStep_verdict (turns_undecided hs n) (rounds n)).1

/-- Where nothing has gone wrong, every body has returned well. -/
theorem returnsWell_of_clean (hs : Undecided s) :
    ∀ n, Clean (turns d budget rounds s n).progress →
      ∀ m < n, Executes d budget (turns d budget rounds s m) (rounds m) → ReturnsWell (rounds m)
  | 0, _, _, hm => absurd hm (Nat.not_lt_zero _)
  | n + 1, hclean, m, hm => by
    obtain ⟨_, hstep, _⟩ := @loopStep_verdict d budget _ _
      (@turns_undecided d budget _ rounds _ hs n) (rounds n)
    obtain ⟨hbefore, hreturns⟩ := hstep hclean
    rcases Nat.lt_succ_iff_lt_or_eq.mp hm with hlt | rfl
    · exact returnsWell_of_clean hs n hbefore m hlt
    · exact hreturns

/-- Where nothing has gone wrong, the budget has lasted and the loop has a
reason to be left, a body has said that it is done. -/
theorem saysComplete_of_clean (hs : Undecided s) (hreason : s.progress.reasonCode = none) :
    ∀ n, Clean (turns d budget rounds s n).progress →
      (turns d budget rounds s n).progress.exhausted = false →
      (turns d budget rounds s n).progress.reasonCode ≠ none →
      ∃ m < n, Executes d budget (turns d budget rounds s m) (rounds m) ∧ SaysComplete (rounds m)
  | 0, _, _, hsome => absurd hreason hsome
  | n + 1, hclean, hlasts, hsome => by
    obtain ⟨_, hstep, hsays⟩ := @loopStep_verdict d budget _ _
      (@turns_undecided d budget _ rounds _ hs n) (rounds n)
    rcases hsays hclean hlasts hsome with ⟨hlasts', hsome'⟩ | ⟨hexec, hcomplete⟩
    · obtain ⟨m, hm, hfound⟩ := saysComplete_of_clean hs hreason n (hstep hclean).1 hlasts' hsome'
      exact ⟨m, Nat.lt_succ_of_lt hm, hfound⟩
    · exact ⟨n, Nat.lt_succ_self n, hexec, hcomplete⟩

/-- The loop as it is entered. -/
theorem start_undecided (g : Gateway) (lease : LeaseContext) (scenes : List Scene) :
    Undecided (LoopState.start g lease scenes) :=
  fun _ => ⟨rfl, rfl, rfl, rfl⟩

/-! ## The loop node -/

/-- What the loop of a run promises under the budget it inherits. -/
structure LoopMeets (d : Deployment) (run : AgentRun) (g : Gateway) (lease : LeaseContext)
    (scenes : List Scene) (w : LoopWorld run.runId) (budget : InheritedLoopBudget) : Prop where
  terminates : ∃ n ≤ budget.maxIterations.toNat + 1, ∀ m, n ≤ m →
    (turns d budget w.rounds (LoopState.start g lease scenes) m).closed = true ∧
      turns d budget w.rounds (LoopState.start g lease scenes) m
        = turns d budget w.rounds (LoopState.start g lease scenes) n
  iterations : ∀ limits, BoundedLoop.frozenLimits run = some limits → ∀ n,
    (invocations d budget w.rounds (LoopState.start g lease scenes) n : Int)
      ≤ limits.maxCalls - (BoundedLoop.usageSnapshot g.usages run.runId).1
  modelCalls : ∀ n, Executes d budget
      (turns d budget w.rounds (LoopState.start g lease scenes) n) (w.rounds n) →
    ∃ f ∈ foundRun d (turns d budget w.rounds (LoopState.start g lease scenes) n) (w.rounds n),
      ((BoundedLoop.usageSnapshot f.usages f.run.runId).1 : Int) < f.limits.maxCalls
  complete : ∀ summary, runBoundedLoopNode d run g lease scenes w = .concluded summary →
    summary.outcome = .complete →
    (∀ n, Executes d budget (turns d budget w.rounds (LoopState.start g lease scenes) n)
        (w.rounds n) → ReturnsWell (w.rounds n)) ∧
      (∀ n, (turns d budget w.rounds (LoopState.start g lease scenes) n).progress.exhausted
        = false) ∧
      (∃ n, Executes d budget (turns d budget w.rounds (LoopState.start g lease scenes) n)
        (w.rounds n) ∧ SaysComplete (w.rounds n)) ∧
      ∃ result ∈ w.final, result.outcome = .complete

/-- A loop keeps within the budget it inherits, and concludes only with
one. -/
def MeetsItsBudget (d : Deployment) (run : AgentRun) (g : Gateway) (lease : LeaseContext)
    (scenes : List Scene) (w : LoopWorld run.runId) : Prop :=
  (∀ budget, BoundedLoop.deriveInheritedBudget run g.usages = .ok budget →
    LoopMeets d run g lease scenes w budget) ∧
  ∀ summary, runBoundedLoopNode d run g lease scenes w = .concluded summary →
    ∃ budget, BoundedLoop.deriveInheritedBudget run g.usages = .ok budget

/-- A complete outcome of `finalize` is that of a loop left in order. -/
theorem finalize_complete {policy : LoopPolicyJson} {progress : LoopProgress}
    {final : Option LoopIterationResult} {usageBefore usageNow : Nat} {summary : LoopSummary}
    (h : finalizeBoundedLoop q policy progress final usageBefore usageNow = .concluded summary)
    (hcomplete : summary.outcome = .complete) :
    progress.exhausted = false ∧ progress.declaredPartial = false ∧
      progress.iterationErrors = 0 ∧ ∃ result ∈ final, result.outcome = .complete := by
  unfold finalizeBoundedLoop at h
  split at h
  · cases h
  split at h
  · cases h
  next result =>
    split at h
    · cases h
    next hends =>
      cases h
      unfold boundedLoopOutcome at hcomplete
      dsimp only at hcomplete
      split at hcomplete
      · cases hcomplete
      next hclean =>
        obtain ⟨hexhausted, hwhole, herrors, hfinal⟩ : progress.exhausted = false ∧
            progress.declaredPartial = false ∧ progress.iterationErrors = 0 ∧
            result.outcome ≠ .incomplete := by
          simpa [not_or] using hclean
        refine ⟨hexhausted, hwhole, herrors, result, rfl, ?_⟩
        by_contra hnot
        exact hends ⟨hnot, hfinal⟩

/-- What a loop that concludes has been. -/
theorem runBoundedLoopNode_concluded {run : AgentRun} {g : Gateway} {lease : LeaseContext}
    {scenes : List Scene} {w : LoopWorld run.runId} {summary : LoopSummary}
    (h : runBoundedLoopNode d run g lease scenes w = .concluded summary) :
    ∃ policy budget, BoundedLoop.deriveInheritedBudget run g.usages = .ok budget ∧
      ∃ progress, progress = (turns d budget w.rounds (LoopState.start g lease scenes)
          (budget.maxIterations.toNat + 1)).progress ∧
        ¬ LeftByException progress ∧ progress.early = none ∧
        finalizeBoundedLoop run.runId policy progress w.final
          (BoundedLoop.usageSnapshot g.usages run.runId).1
          (BoundedLoop.usageSnapshot w.usagesAfter run.runId).1 = .concluded summary := by
  unfold runBoundedLoopNode at h
  split at h
  · cases h
  next policy _ =>
  split at h
  · cases h
  next budget hbudget =>
  split at h
  · cases h
  split at h
  · cases h
  dsimp only at h
  split at h
  · cases h
  next hleft =>
  split at h
  · cases h
  next hearly => exact ⟨policy, budget, hbudget, _, rfl, hleft, hearly, h⟩

/-- What a budget has been derived from. -/
theorem maxIterations_of_derive {run : AgentRun} {usages : UsageTable}
    {budget : InheritedLoopBudget} {limits : FrozenLimits}
    (h : BoundedLoop.deriveInheritedBudget run usages = .ok budget)
    (hlimits : BoundedLoop.frozenLimits run = some limits) :
    budget.maxIterations = limits.maxCalls - (BoundedLoop.usageSnapshot usages run.runId).1 ∧
      0 < budget.maxIterations := by
  unfold BoundedLoop.deriveInheritedBudget at h
  rw [hlimits] at h
  dsimp only at h
  split at h
  · cases h
  next hleft =>
    cases h
    refine ⟨rfl, ?_⟩
    unfold InheritedLoopBudget.Spent BoundedLoop.remaining at hleft
    simp only [not_or, not_le] at hleft
    exact hleft.1

/-- **The bounded loop**, for any runner and any frozen limits: it terminates,
it runs its body within the calls that are left to its run, and it is complete
only where no body was skipped, failed or declared a partial result, the
budget has lasted, and a body has said that it is done. -/
theorem bounded_loop_meets (d : Deployment) (run : AgentRun) (g : Gateway) (lease : LeaseContext)
    (scenes : List Scene) (w : LoopWorld run.runId) : MeetsItsBudget d run g lease scenes w := by
  refine ⟨fun budget hbudget => ?_, fun summary h => ?_⟩
  · have hstart : (LoopState.start g lease scenes).progress.iterations = 0 := rfl
    have hleft := @turns_left d budget _ w.rounds _ hstart
    have hundecided := start_undecided g lease scenes
    refine ⟨⟨_, le_refl _, fun m hm => ?_⟩, fun limits hlimits n => ?_, fun n hexec => ?_,
      fun summary h hcomplete => ?_⟩
    · have hsame := turns_closed hleft m hm
      exact ⟨by rw [hsame]; exact hleft, hsame⟩
    · obtain ⟨hmax, hpos⟩ := maxIterations_of_derive hbudget hlimits
      have hle := (@invocations_le d budget _ w.rounds _ hstart n).2
      rw [← hmax]
      omega
    · exact (iterations_lt_of_executes hexec).2
    · obtain ⟨policy, budget', hbudget', progress, rfl, hraised, hearly, hfinal⟩ :=
        runBoundedLoopNode_concluded h
      rw [hbudget] at hbudget'
      cases hbudget'
      obtain ⟨hlasts, hwhole, herrors, hfinally⟩ := finalize_complete hfinal hcomplete
      have hclean : Clean (turns d budget w.rounds (LoopState.start g lease scenes)
          (budget.maxIterations.toNat + 1)).progress := ⟨hearly, herrors, hwhole⟩
      refine ⟨fun n hexec => ?_, fun n => ?_, ?_, hfinally⟩
      · refine returnsWell_of_clean hundecided _ hclean n ?_ hexec
        -- a loop that has been left runs no body
        by_contra hnot
        have hsame := turns_closed hleft n (not_lt.mp hnot)
        have hopen := open_of_executes hexec
        rw [hsame, hleft] at hopen
        cases hopen
      · cases hclosed : (turns d budget w.rounds (LoopState.start g lease scenes) n).closed with
        | false => exact (turns_undecided hundecided n hclosed).2.1
        | true =>
          -- it is the state the loop is left in
          have hsame := (turns_closed hclosed _ (le_max_left n _)).symm.trans
            (turns_closed hleft _ (le_max_right n _))
          rw [hsame]
          exact hlasts
      · -- without a reason it would have been left by an exception
        have hreason := fun hnone => hraised ⟨hearly, hlasts, hnone⟩
        obtain ⟨m, _, hfound⟩ := saysComplete_of_clean hundecided rfl _ hclean hlasts hreason
        exact ⟨m, hfound⟩
  · obtain ⟨_, budget, hbudget, _⟩ := runBoundedLoopNode_concluded h
    exact ⟨budget, hbudget⟩

end WorkflowExecutor

end AgentRuntime
