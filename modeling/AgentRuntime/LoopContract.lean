import AgentRuntime.BoundedLoop

/-!
# One model call in each turn of the loop

The loop allows each turn of its body one logical model call, and counts
usage rows to enforce it. The rows are one for each physical attempt that
keeps its row (`Gateway.rows_call`), and a body that raises is not looked
at. So the contract is enforced exactly where no body that raises has
consumed more than one call, and it is enforced on the right bodies exactly
where no single call keeps more than one row: a wait that ends in another
attempt, or a fallback route, already counts as a second call.
-/

namespace AgentRuntime

open Keyed Gateway Runs

namespace WorkflowExecutor

variable {d : Deployment} {budget : InheritedLoopBudget} {q : String}

/-- The loop failed on its model calls. -/
def Violated (s : LoopState) : Prop :=
  ∃ result ∈ s.progress.early, result.errorCode = some "LOOP_MODEL_CALL_CONTRACT_VIOLATED"

/-- The turn runs the body of the loop. -/
def Executes (d : Deployment) (budget : InheritedLoopBudget) (s : LoopState) (r : Round q) : Prop :=
  (enterIteration d budget s r).2 = true

/-- How many of the calls leave something in the ledger of the run. -/
def consumed (d : Deployment) (q : String) : Gateway → List LogicalCall → Nat
  | _, [] => 0
  | g, call :: calls =>
    let called := ModelGateway.call d.limits d.routes g call
    (if rows g.usages q < rows called.gateway.usages q then 1 else 0)
      + consumed d q called.gateway calls

/-- The calls the body of the turn has consumed. -/
def callsConsumed (d : Deployment) (budget : InheritedLoopBudget) (s : LoopState) (r : Round q) :
    Nat :=
  consumed d q (enterIteration d budget s r).1.gateway r.calls

/-- A body that consumed more than one call fails the loop. -/
def FailsClosed (d : Deployment) (budget : InheritedLoopBudget) (s : LoopState) (r : Round q) :
    Prop :=
  Executes d budget s r → 1 < callsConsumed d budget s r → Violated (loopStep d budget s r)

/-- The body makes at most one call. -/
def MakesOneCall (d : Deployment) (budget : InheritedLoopBudget) (s : LoopState) (r : Round q) :
    Prop :=
  Executes d budget s r → r.calls.length ≤ 1

/-- A body that raises has consumed at most one call. -/
def RaisesInTime (d : Deployment) (budget : InheritedLoopBudget) (s : LoopState) (r : Round q) :
    Prop :=
  Executes d budget s r → r.result = none → callsConsumed d budget s r ≤ 1

/-- In a body that returns, at most one physical attempt of a call keeps its
row: the first, the one after a wait, or one on a fallback route. -/
def KeepsOneRow (d : Deployment) (budget : InheritedLoopBudget) (s : LoopState) (r : Round q) :
    Prop :=
  Executes d budget s r → r.result ≠ none → ∀ call ∈ r.calls,
    kept (ModelGateway.call d.limits d.routes (enterIteration d budget s r).1.gateway call).made ≤ 1

/-! ## The rows of a body -/

/-- The rows the calls of a body add. -/
def added (d : Deployment) (q : String) (g : Gateway) (calls : List LogicalCall) : Nat :=
  rows (makeCalls d g calls).usages q - rows g.usages q

theorem rows_le_makeCalls (d : Deployment) {q : String} :
    ∀ (calls : List LogicalCall) (g : Gateway), (∀ call ∈ calls, call.ctx.runId = q) →
      rows g.usages q ≤ rows (makeCalls d g calls).usages q
  | [], _, _ => Nat.le_refl _
  | call :: calls, g, hown => by
    have hcall := rows_call d.limits d.routes g call
    rw [hown call List.mem_cons_self] at hcall
    have hrest := rows_le_makeCalls d calls
      (ModelGateway.call d.limits d.routes g call).gateway
      (fun c hc => hown c (List.mem_cons_of_mem _ hc))
    exact Nat.le_trans (hcall ▸ Nat.le_add_right _ _) hrest

/-- Each call that is consumed has added a row. -/
theorem consumed_le_added (d : Deployment) {q : String} :
    ∀ (calls : List LogicalCall) (g : Gateway), (∀ call ∈ calls, call.ctx.runId = q) →
      consumed d q g calls ≤ added d q g calls
  | [], _, _ => Nat.zero_le _
  | call :: calls, g, hown => by
    have hown' : ∀ c ∈ calls, c.ctx.runId = q := fun c hc => hown c (List.mem_cons_of_mem _ hc)
    have ih := consumed_le_added d calls (ModelGateway.call d.limits d.routes g call).gateway hown'
    have hle := rows_le_makeCalls d calls
      (ModelGateway.call d.limits d.routes g call).gateway hown'
    have hmono := rows_le_makeCalls d [call] g (by simpa using hown call List.mem_cons_self)
    unfold added at *
    unfold consumed
    show _ ≤ rows (makeCalls d (ModelGateway.call d.limits d.routes g call).gateway calls).usages q
      - rows g.usages q
    have hmono' : rows g.usages q
        ≤ rows (ModelGateway.call d.limits d.routes g call).gateway.usages q := hmono
    dsimp only
    split <;> omega

/-- One call adds the rows its attempts keep. -/
theorem added_singleton (d : Deployment) {q : String} (g : Gateway) {call : LogicalCall}
    (hown : call.ctx.runId = q) :
    added d q g [call] = kept (ModelGateway.call d.limits d.routes g call).made := by
  have hcall := rows_call d.limits d.routes g call
  rw [hown] at hcall
  show rows (ModelGateway.call d.limits d.routes g call).gateway.usages q - _ = _
  omega

/-! ## One turn -/

/-- A loop that has an early result has been left. -/
def Settled (s : LoopState) : Prop :=
  s.progress.early ≠ none → s.closed = true

theorem code_of_loopSafetyCheck {draining : Bool} {g : Gateway} {lease : LeaseContext}
    {result : AgentRunResult} (h : (loopSafetyCheck d q draining g lease).2.2 = some result) :
    result.errorCode ≠ some "LOOP_MODEL_CALL_CONTRACT_VIOLATED" := by
  unfold loopSafetyCheck at h
  dsimp only at h
  cases hrun : g.sys.db.runs.find? q with
  | none =>
    rw [hrun] at h
    cases h
    simp [fail]
  | some run =>
    rw [hrun] at h
    dsimp only at h
    by_cases hcancel : run.cancelRequestedAt ≠ none
    · rw [if_pos hcancel] at h
      cases h
      simp
    rw [if_neg hcancel] at h
    by_cases hauth : authorizationChanged d.resolver run = true
    · rw [if_pos hauth] at h
      cases h
      simp
    rw [if_neg hauth] at h
    by_cases hpackage : packageExecutable g.sys.db run = false
    · rw [if_pos hpackage] at h
      cases h
      simp
    rw [if_neg hpackage] at h
    split at h
    · cases draining with
      | true =>
        cases h
        simp
      | false => cases h
    · cases h
      simp [fail]

/-- What a turn does before its body: it runs the body of a loop that is
open, or leaves the loop for another reason. -/
theorem enterIteration_cases (d : Deployment) (budget : InheritedLoopBudget) (s : LoopState)
    (r : Round q) :
    (Executes d budget s r ∧ s.closed = false ∧
      (enterIteration d budget s r).1.progress = s.progress ∧
      (enterIteration d budget s r).1.closed = false) ∨
    (¬ Executes d budget s r ∧ (enterIteration d budget s r).1.closed = true ∧
      ((enterIteration d budget s r).1.progress.early = s.progress.early ∨
        ∃ result, (enterIteration d budget s r).1.progress.early = some result ∧
          result.errorCode ≠ some "LOOP_MODEL_CALL_CONTRACT_VIOLATED")) := by
  unfold Executes enterIteration
  cases hclosed : s.closed with
  | true => exact Or.inr ⟨Bool.false_ne_true, hclosed, Or.inl rfl⟩
  | false =>
    rw [if_neg (by simp)]
    rcases hcheck : loopSafetyCheck d q r.draining (s.gateway.meanwhile d.limits r.meanwhile)
      s.lease with ⟨g, lease, early⟩
    cases early with
    | some result =>
      refine Or.inr ⟨Bool.false_ne_true, rfl, Or.inr ⟨result, rfl, ?_⟩⟩
      exact code_of_loopSafetyCheck (by rw [hcheck])
    | none =>
      dsimp only
      split
      · exact Or.inr ⟨Bool.false_ne_true, rfl, Or.inl rfl⟩
      · split
        · exact Or.inr ⟨Bool.false_ne_true, rfl, Or.inl rfl⟩
        · exact Or.inl ⟨rfl, rfl, rfl, rfl⟩

theorem loopStep_of_executes {s : LoopState} {r : Round q} (h : Executes d budget s r) :
    loopStep d budget s r = runIteration d (enterIteration d budget s r).1 r := by
  unfold Executes at h
  unfold loopStep
  rcases henter : enterIteration d budget s r with ⟨s', runs⟩
  rw [henter] at h
  cases h
  rfl

theorem loopStep_of_not_executes {s : LoopState} {r : Round q} (h : ¬ Executes d budget s r) :
    loopStep d budget s r = (enterIteration d budget s r).1 := by
  unfold Executes at h
  unfold loopStep
  rcases henter : enterIteration d budget s r with ⟨s', runs⟩
  rw [henter] at h
  cases runs with
  | true => exact absurd rfl h
  | false => rfl

/-- A body starts without an early result. -/
theorem early_of_executes {s : LoopState} {r : Round q} (hsettled : Settled s)
    (h : Executes d budget s r) : (enterIteration d budget s r).1.progress.early = none := by
  rcases enterIteration_cases d budget s r with ⟨-, hopen, hprogress, -⟩ | ⟨hnot, -⟩
  · rw [hprogress]
    by_contra hne
    rw [hsettled hne] at hopen
    cases hopen
  · exact absurd h hnot

/-- A conclusion is never about the model calls. -/
theorem not_violated_conclude {s : LoopState} {result : LoopIterationResult}
    (hearly : s.progress.early = none) : ¬ Violated (concludeIteration q s result) := by
  rintro ⟨e, he, hcode⟩
  unfold concludeIteration at he
  dsimp only at he
  split at he
  · cases he
    simp [fail] at hcode
  · split at he <;> simp [hearly] at he

/-- A turn fails the loop on its model calls where its body returns and has
added more than one row. -/
theorem violated_loopStep {s : LoopState} (hsettled : Settled s) (hnot : ¬ Violated s)
    (r : Round q) :
    Violated (loopStep d budget s r) ↔ Executes d budget s r ∧ r.result ≠ none ∧
      1 < added d q (enterIteration d budget s r).1.gateway r.calls := by
  by_cases hexec : Executes d budget s r
  · have hnone := early_of_executes hsettled hexec
    rw [loopStep_of_executes hexec]
    unfold runIteration
    cases r.result with
    | none => simp [Violated, hnone]
    | some result =>
      dsimp only
      split
      next hmore => exact ⟨fun _ => ⟨hexec, by simp, hmore⟩, fun _ => ⟨_, rfl, rfl⟩⟩
      next hfew =>
        exact ⟨fun h => absurd h (not_violated_conclude hnone), fun h => absurd h.2.2 hfew⟩
  · rw [loopStep_of_not_executes hexec]
    refine ⟨fun h => ?_, fun h => absurd h.1 hexec⟩
    obtain ⟨result, hresult, hcode⟩ := h
    rcases enterIteration_cases d budget s r with ⟨hdoes, -⟩ | ⟨-, -, hsame | ⟨other, hother, hne⟩⟩
    · exact absurd hdoes hexec
    · rw [hsame] at hresult
      exact absurd ⟨result, hresult, hcode⟩ hnot
    · rw [hother] at hresult
      cases hresult
      exact absurd hcode hne

theorem settled_loopStep {s : LoopState} (hsettled : Settled s) (r : Round q) :
    Settled (loopStep d budget s r) := by
  by_cases hexec : Executes d budget s r
  · have hnone := early_of_executes hsettled hexec
    rw [loopStep_of_executes hexec]
    unfold runIteration
    cases r.result with
    | none => exact fun hne => absurd hnone hne
    | some result =>
      dsimp only
      split
      · exact fun _ => rfl
      · unfold concludeIteration
        dsimp only
        split
        · exact fun _ => rfl
        · split
          · exact fun hne => absurd hnone hne
          · exact fun _ => rfl
  · rw [loopStep_of_not_executes hexec]
    rcases enterIteration_cases d budget s r with ⟨hdoes, -⟩ | ⟨-, hclosed, -⟩
    · exact absurd hdoes hexec
    · exact fun _ => hclosed

/-! ## Whole loops -/

/-- A loop that failed on its model calls has been left, and stays so. -/
theorem violated_loopStep_of_violated {s : LoopState} (hsettled : Settled s) (h : Violated s)
    (r : Round q) : loopStep d budget s r = s := by
  obtain ⟨result, hresult, -⟩ := h
  have hclosed : s.closed = true := hsettled fun hnone => by
    rw [hnone] at hresult
    cases hresult
  unfold loopStep enterIteration
  rw [if_pos hclosed]

theorem violated_run {s : LoopState} (hsettled : Settled s) (h : Violated s) :
    ∀ rounds : List (Round q), Violated (run (loopStep d budget) s rounds)
  | [] => h
  | r :: rounds => by
    rw [run_cons, violated_loopStep_of_violated hsettled h]
    exact violated_run hsettled h rounds

/-- A body that returns adds at most one row. -/
def AddsOneRow (d : Deployment) (budget : InheritedLoopBudget) (s : LoopState) (r : Round q) :
    Prop :=
  Executes d budget s r → r.result ≠ none →
    added d q (enterIteration d budget s r).1.gateway r.calls ≤ 1

theorem not_violated_loopStep {s : LoopState} (hsettled : Settled s) (hnot : ¬ Violated s)
    (r : Round q) : ¬ Violated (loopStep d budget s r) ↔ AddsOneRow d budget s r := by
  rw [violated_loopStep hsettled hnot]
  unfold AddsOneRow
  simp only [not_and, not_lt]

/-- A loop does not fail on its model calls where no turn makes it. -/
theorem not_violated_run : ∀ (rounds : List (Round q)) (s : LoopState), Settled s →
    ¬ Violated s → (¬ Violated (run (loopStep d budget) s rounds) ↔
      Along (loopStep d budget) (AddsOneRow d budget) s rounds)
  | [], _, _, h => ⟨fun _ => trivial, fun _ => h⟩
  | r :: rounds, s, hsettled, hnot => by
    have hsettled' : Settled (loopStep d budget s r) := settled_loopStep hsettled r
    have hone : ¬ Violated (loopStep d budget s r) ↔ AddsOneRow d budget s r :=
      not_violated_loopStep hsettled hnot r
    by_cases hstep : Violated (loopStep d budget s r)
    · exact ⟨fun h => absurd (violated_run hsettled' hstep rounds) h,
        fun h => absurd hstep (hone.mpr h.1)⟩
    · have ih := not_violated_run rounds (loopStep d budget s r) hsettled' hstep
      exact ⟨fun h => ⟨hone.mp hstep, ih.mp h⟩, fun h => ih.mpr h.2⟩

/-- For a body of at most one call, the rows added are the ones its attempts
keep. -/
theorem addsOneRow_iff {s : LoopState} {r : Round q} (h : MakesOneCall d budget s r) :
    AddsOneRow d budget s r ↔ KeepsOneRow d budget s r := by
  unfold AddsOneRow KeepsOneRow
  refine forall_congr' fun hexec => forall_congr' fun _ => ?_
  have hlen := h hexec
  have hown := r.own
  match r.calls, hlen, hown with
  | [], _, _ => simp [added, makeCalls]
  | [call], _, hown =>
    rw [added_singleton d _ (hown call List.mem_cons_self)]
    simp
  | _ :: _ :: _, hlen, _ => exact absurd hlen (by simp)

/-- A turn fails closed on a body that consumed too much where the body does
not raise. -/
theorem failsClosed_iff {s : LoopState} (hsettled : Settled s) (r : Round q) :
    FailsClosed d budget s r ↔ RaisesInTime d budget s r := by
  unfold FailsClosed RaisesInTime
  refine forall_congr' fun hexec => ?_
  have hnot : ¬ Violated s := by
    rintro ⟨result, hresult, -⟩
    rcases enterIteration_cases d budget s r with ⟨-, hopen, -⟩ | ⟨hdoesNot, -⟩
    · have hclosed := hsettled fun hnone => by
        rw [hnone] at hresult
        cases hresult
      rw [hclosed] at hopen
      cases hopen
    · exact hdoesNot hexec
  rw [violated_loopStep hsettled hnot]
  have hle := consumed_le_added d r.calls (enterIteration d budget s r).1.gateway r.own
  constructor
  · intro h hraises
    by_contra hmore
    exact (h (by omega)).2.1 hraises
  · intro h hmore
    refine ⟨hexec, fun hraises => ?_, ?_⟩
    · have := h hraises
      omega
    · unfold callsConsumed at hmore
      omega

/-- The loop as it is entered. -/
def LoopState.start (g : Gateway) (lease : LeaseContext) (scenes : List Scene) : LoopState :=
  { gateway := g, lease := lease, scenes := scenes }

/-- In every run of the loop: a body that consumed more than one model call
always fails the loop, and a loop whose bodies make at most one call never
fails on its model calls, if and only if every body that raises consumed at
most one call, and, where every body makes at most one call, none that
returns has a call more than one of whose attempts keeps its row. -/
theorem one_call_contract (d : Deployment) (budget : InheritedLoopBudget) (q : String)
    (g : Gateway) (lease : LeaseContext) (scenes : List Scene) (rounds : List (Round q)) :
    (Along (loopStep d budget) (FailsClosed d budget) (LoopState.start g lease scenes) rounds ∧
      (Along (loopStep d budget) (MakesOneCall d budget) (LoopState.start g lease scenes) rounds →
        ¬ Violated (run (loopStep d budget) (LoopState.start g lease scenes) rounds))) ↔
    (Along (loopStep d budget) (RaisesInTime d budget) (LoopState.start g lease scenes) rounds ∧
      (Along (loopStep d budget) (MakesOneCall d budget) (LoopState.start g lease scenes) rounds →
        Along (loopStep d budget) (KeepsOneRow d budget) (LoopState.start g lease scenes)
          rounds)) := by
  have hsettled : Settled (LoopState.start g lease scenes) := fun hne => absurd rfl hne
  have hnot : ¬ Violated (LoopState.start g lease scenes) := by
    rintro ⟨result, hresult, -⟩
    cases hresult
  have hinv : Along (loopStep d budget) (fun s _ => Settled s) (LoopState.start g lease scenes)
      rounds := along_of_inv (fun _ r h => settled_loopStep h r) (fun _ _ h => h) rounds _ hsettled
  rw [along_congr (fun _ r h => failsClosed_iff h r) rounds _ hinv]
  refine and_congr_right fun _ => forall_congr' fun hone => ?_
  rw [not_violated_run rounds _ hsettled hnot]
  exact along_congr (fun _ _ h => addsOneRow_iff h) rounds _ hone

end WorkflowExecutor

/-! ## The two ways out of the contract -/

def loopPackage : AgentDefinition :=
  { samplePackage with
    definitionJson := { samplePackage.definitionJson with
      policy := {
        maxModelCalls := some 10
        maxModelCost := some 1
        maxTokens := some 1000
        maxRunSeconds := some 600 } } }

/-- A worker is at the loop node of a run. -/
def loopingRun : Sys :=
  reach {} [
    after 0 (.register [loopPackage]),
    after 0 (.create "run-1" (sampleCommand .auto) "caller" "tenant" 1),
    after 0 (.claim "run-1" "worker-1" 90),
    after 1 (.write 0 (.addStep modelStep))]

def loopDeployment : Deployment :=
  { routes := ⟨[sampleRoute], by decide⟩ }

/-- What the loop inherits from that run. -/
def loopBudget : InheritedLoopBudget :=
  { maxIterations := 10
    remainingModelCalls := 10
    remainingTokens := 1000
    remainingCost := 1
    remainingMs := 600000 }

def loopEntered : LoopState :=
  WorkflowExecutor.LoopState.start { sys := loopingRun } sampleContext.leaseContext []

def answeredFate : AttemptFate :=
  { fate := { provider := .succeeded none (some 1) (some 1) } }

/-- A body that makes two calls and then raises. -/
def raisingRound : Round "run-1" :=
  let answered : LogicalCall :=
    { ctx := sampleContext, routeId := "primary", world := fun _ => answeredFate }
  { calls := [answered, answered] }

/-- A body that makes one call, which waits for a rate limit and is then
answered. -/
def waitingRound : Round "run-1" :=
  { calls := [{
      ctx := sampleContext
      routeId := "primary"
      world := fun n =>
        if n = 0 then
          { fate := { provider := .rateLimited }
            retryAfter := seconds 5
            window := some (seconds 30) }
        else answeredFate }]
    result := some { outcome := .goesOn } }

open WorkflowExecutor in
/-- Two calls of a body that raises pass unnoticed, and one call that waits
for its route fails the loop. -/
theorem loop_contract_missed :
    (loopingRun.db.runs.find? "run-1").map
        (fun run => (BoundedLoop.deriveInheritedBudget run Table.empty).toOption)
      = some (some loopBudget) ∧
    ¬ Along (loopStep loopDeployment loopBudget) (FailsClosed loopDeployment loopBudget)
      loopEntered [raisingRound] ∧
    Along (loopStep loopDeployment loopBudget) (MakesOneCall loopDeployment loopBudget)
      loopEntered [waitingRound] ∧
    Violated (run (loopStep loopDeployment loopBudget) loopEntered [waitingRound]) := by
  refine ⟨by decide +kernel, fun h => ?_, ⟨fun _ => Nat.le_refl 1, trivial⟩, fail "run-1" _,
    ?_, rfl⟩
  · have hexec : Executes loopDeployment loopBudget loopEntered raisingRound := by
      unfold Executes
      decide +kernel
    obtain ⟨result, hresult, -⟩ := h.1 hexec (by decide +kernel)
    have hnone : (loopStep loopDeployment loopBudget loopEntered raisingRound).progress.early
        = none := by decide +kernel
    rw [hnone] at hresult
    cases hresult
  · decide +kernel

end AgentRuntime
