import AgentRuntime.Perform
import Mathlib

/-!
# Two limits on active time

A run is stopped for its active time by two components. The worker asks
`PolicyEngine`, which reads `max_run_seconds` of the execution policy frozen
in the run (`assertCanContinue`); the reconciler reads `max_run_seconds` of
the run's plan (`activeLimitReached`). The planner never looks at the package
for that number: every plan in every reachable database has the default of
300 s (`plansDefault_reach`), whatever the package declares.

So the reconciler stops a run exactly from 300 s on. That is after the frozen
limit for the packages that declare one below 300 s, and for no other
(`one_active_limit`): a package with a larger limit, with 300 s itself, or
with none has runs that the reconciler stops while the worker would go on
(`active_limit_differs`).
-/

namespace AgentRuntime

open Keyed Runs ReconciliationService

variable {limits : AdmissionLimits} {now : Time} {causes : Cause → AgentRun → Prop}

/-! ## Every plan has the default limit -/

/-- Every plan stops at the default conditions. -/
def PlansDefault (db : Db) : Prop :=
  ∀ plan ∈ db.plans, plan.stopConditions = defaultStopConditions

theorem transitionRun_plans {l : AdmissionLimits} {db db' : Db} {run : AgentRun}
    {old : Option DispatchState} {new : DispatchState}
    (h : transitionRun l db run old new = .ok db') : db'.plans = db.plans := by
  obtain ⟨_, rfl, _⟩ := transitionRun_ok h
  rfl

theorem settle_plans {db db' : Db} {run : AgentRun} {shift : Shift} {event : Option String}
    (h : settle db run shift event = .ok db') : db'.plans = db.plans := by
  obtain ⟨db₁, hshift, hev⟩ := settle_ok.mp h
  have hplans₁ : db₁.plans = db.plans := by
    cases shift with
    | none =>
      cases hshift
      rfl
    | some shift =>
      have hrow := transitionRun_plans hshift
      exact hrow
  cases event with
  | none =>
    cases hev
    exact hplans₁
  | some event =>
    obtain ⟨_, _, rfl⟩ := appendCallbackEvent_ok hev
    exact hplans₁

/-- A turn adds a plan with the default conditions, or none. -/
theorem Turn.plansDefault {id : String} {db db' : Db} (h : Turn limits now causes id db db')
    (hp : PlansDefault db) : PlansDefault db' := by
  unfold PlansDefault at hp ⊢
  cases h with
  | idle h =>
    rw [h.plans]
    exact hp
  | create run command definition policy callerId tenantId av hrun runs hins db₁ hadm plan hplan h =>
    have hplans₁ := transitionRun_plans hadm
    rw [h.plans]
    intro p hmem
    rcases List.mem_append.mp hmem with hold | hnew
    · rw [hplans₁] at hold
      exact hp p hold
    · obtain ⟨_, _, rfl⟩ := createPlanFromDefinition_ok hplan
      rw [List.mem_singleton.mp hnew]
  | move r r' shift event hfind hmove db₁ hset h _ =>
    rw [h.plans, settle_plans hset]
    exact hp

theorem Turns.plansDefault {ids : List String} {db db' : Db}
    (h : Turns limits now causes ids db db') (hp : PlansDefault db) : PlansDefault db' := by
  induction h with
  | nil h =>
    unfold PlansDefault at hp ⊢
    rw [h.plans]
    exact hp
  | cons h _ ih => exact ih (h.plansDefault hp)

theorem plansDefault_step (limits : AdmissionLimits) (s : Sys) (e : Event)
    (h : PlansDefault s.db) : PlansDefault (step limits s e).db := by
  rcases step_cases limits s e with ⟨db, issued, hop, hs⟩ | hs
  · rw [hs]
    obtain ⟨ids, _, hturns⟩ := perform_turns hop
    exact hturns.plansDefault h
  · rw [hs]
    exact h

/-- In every reachable database the planner's default is the limit of every
plan. -/
theorem plansDefault_reach (limits : AdmissionLimits) (es : List Event) :
    PlansDefault (reach limits es).db := by
  refine run_inv (I := fun s : Sys => PlansDefault s.db) (plansDefault_step limits) es {} ?_
  intro plan hmem
  exact absurd hmem List.not_mem_nil

/-! ## The two readers -/

/-- The reconciler sees the limit reached from 300 s on. -/
theorem activeLimitReached_ms {db : Db} {run : AgentRun} (hp : PlansDefault db)
    (h : activeLimitReached db run = true) : 300000 ≤ run.activeElapsedMs := by
  unfold activeLimitReached at h
  split at h
  · cases h
  next limit hlimit =>
    obtain ⟨plan, hplan, hmax⟩ := Option.bind_eq_some_iff.mp hlimit
    have hmem : plan ∈ db.plans := List.mem_of_find?_eq_some hplan
    rw [hp plan hmem] at hmax
    cases hmax
    obtain ⟨_, hle⟩ := of_decide_eq_true h
    omega

theorem repairActiveElapsedTimeout_true {db db' : Db} {run : AgentRun}
    (h : repairActiveElapsedTimeout db now run = .ok (db', true)) :
    activeLimitReached db run = true := by
  unfold repairActiveElapsedTimeout at h
  split at h
  next hr => exact hr
  · cases h

/-- The limits of a validated policy are not negative. -/
theorem PackagePolicy.modelValidate_ok {raw : RawPolicy} {policy : PackagePolicy}
    (h : PackagePolicy.modelValidate raw = .ok policy) :
    policy.maxRunSeconds = raw.maxRunSeconds ∧ limitValid policy.maxRunSeconds = true := by
  obtain ⟨_, _, h⟩ := bind_ok.mp h
  obtain ⟨_, _, h⟩ := bind_ok.mp h
  obtain ⟨_, _, h⟩ := bind_ok.mp h
  obtain ⟨_, _, h⟩ := bind_ok.mp h
  obtain ⟨_, hlimits, h⟩ := bind_ok.mp h
  obtain ⟨_, _, h⟩ := bind_ok.mp h
  cases h
  rw [require_ok] at hlimits
  exact ⟨rfl, hlimits.2.2.1⟩

theorem nonnegativeInt_of_valid {limit : Option Int} (h : limitValid limit = true) :
    nonnegativeInt limit = limit := by
  unfold nonnegativeInt
  cases limit with
  | none => rfl
  | some n => exact Option.filter_eq_some_iff.mpr ⟨rfl, h⟩

/-- The worker is stopped for its active time once it is over the limit of
the frozen policy. -/
theorem assertCanContinue_active {run : AgentRun} {policy : PackagePolicy}
    (hrun : run.executionPolicy = some policy.executionPolicy)
    (hvalid : limitValid policy.maxRunSeconds = true) :
    assertCanContinue run {} = .error "ACTIVE_TIME_LIMIT_EXCEEDED" ↔
      ∃ n, policy.maxRunSeconds = some n ∧ n * 1000 < run.activeElapsedMs := by
  unfold assertCanContinue
  rw [hrun]
  simp only [overLimit_zero, Bool.false_eq_true, if_false, PackagePolicy.executionPolicy,
    nonnegativeInt_of_valid hvalid]
  cases policy.maxRunSeconds with
  | none => simp
  | some n =>
    simp only [nonnegativeInt, Option.filter, le_refl, decide_true, if_true, Int.add_zero]
    by_cases hover : n * 1000 < run.activeElapsedMs
    · simp [hover]
    · simp [hover]

/-! ## When they agree -/

/-- The reconciler stops the run for its active time only when that is over
the frozen limit, and the worker would be stopped too. -/
def StopsAsFrozen (s : Sys) (run : AgentRun) : Prop :=
  ∀ now db', repairActiveElapsedTimeout s.db now run = .ok (db', true) →
    (∃ n, (run.executionPolicy.bind (·.maxRunSeconds)) = some n ∧
      n * 1000 < run.activeElapsedMs) ∧
    assertCanContinue run {} = .error "ACTIVE_TIME_LIMIT_EXCEEDED"

/-- A package with the given policy. -/
def packageWith (raw : RawPolicy) : AgentDefinition :=
  { samplePackage with
    definitionJson := { samplePackage.definitionJson with policy := raw } }

/-- A run of the package has been active for 300 seconds. -/
def longRun (raw : RawPolicy) : List Event :=
  [after 0 (.register [packageWith raw]),
   after 0 (.create "run-1" (sampleCommand .auto) "caller" "tenant" 1),
   after 0 (.claim "run-1" "worker-1" 900),
   after 300 (.write 0 (.addActiveElapsed 300000))]

/-- The row of that run. -/
def longRow (policy : PackagePolicy) : AgentRun :=
  ((newRun "run-1" (sampleCommand .auto) samplePackage policy "caller" "tenant" 1 0).claimBy 0 900
    "worker-1").addActiveElapsed 300000

/-- The run of the package is accepted, and works for 300 seconds. -/
theorem create_packageWith {raw : RawPolicy} {policy : PackagePolicy}
    (h : PackagePolicy.modelValidate raw = .ok policy) :
    ∃ db, AgentRunService.create {} { definitions := [packageWith raw] } (0 + seconds 0) "run-1"
        (sampleCommand .auto) "caller" "tenant" 1 = .ok db ∧
      (Runs.run (step {}) { db := db } ((longRun raw).drop 2)).db.runs.find? "run-1"
        = some (longRow policy) ∧
      ∃ db', repairActiveElapsedTimeout (Runs.run (step {}) { db := db } ((longRun raw).drop 2)).db
        0 (longRow policy) = .ok (db', true) := by
  unfold AgentRunService.create
  rw [show Db.definition? { definitions := [packageWith raw] } (sampleCommand .auto).agentId
    (sampleCommand .auto).agentVersion = some (packageWith raw) from rfl]
  -- from here on the policy is only carried along
  simp only [show (packageWith raw).definitionJson.policy = raw from rfl, h]
  refine ⟨?db, ?hcreate, ?hrow, ?db', ?hstop⟩
  case hcreate =>
    cbv
    exact rfl
  case hrow => cbv
  case hstop =>
    cbv
    exact rfl

/-- Whatever the package declares, its run is there after 300 active seconds
and the reconciler stops it. -/
theorem reach_longRun {raw : RawPolicy} {policy : PackagePolicy}
    (h : PackagePolicy.modelValidate raw = .ok policy) :
    (reach {} (longRun raw)).db.runs.find? "run-1" = some (longRow policy) ∧
      ∃ db', repairActiveElapsedTimeout (reach {} (longRun raw)).db 0 (longRow policy)
        = .ok (db', true) := by
  obtain ⟨db, hcreate, hrow, hstop⟩ := create_packageWith h
  have hperf : perform {} { definitions := [packageWith raw] } (0 + seconds 0) []
      (.create "run-1" (sampleCommand .auto) "caller" "tenant" 1) = .ok (db, []) :=
    bind_ok.mpr ⟨db, hcreate, rfl⟩
  have hreach : reach {} (longRun raw) = Runs.run (step {}) { db := db } ((longRun raw).drop 2) :=
    congrArg (fun s => Runs.run (step {}) s ((longRun raw).drop 2)) (step_ok hperf)
  rw [hreach]
  exact ⟨hrow, hstop⟩

/-- A package that does not declare a limit below 300 s has a run that the
reconciler stops too early. -/
theorem stopped_early {raw : RawPolicy} {policy : PackagePolicy}
    (h : PackagePolicy.modelValidate raw = .ok policy)
    (hlimit : ∀ n, raw.maxRunSeconds = some n → 300 ≤ n) :
    ¬ StopsAsFrozen (reach {} (longRun raw)) (longRow policy) := by
  intro hstops
  obtain ⟨_, db', hstop⟩ := reach_longRun h
  obtain ⟨⟨n, hn, hover⟩, _⟩ := hstops 0 db' hstop
  rw [show (longRow policy).executionPolicy.bind (·.maxRunSeconds) = policy.maxRunSeconds from rfl,
    (PackagePolicy.modelValidate_ok h).1] at hn
  have hle := hlimit n hn
  have hms : (longRow policy).activeElapsedMs = 300000 := by cbv
  rw [hms] at hover
  omega

/-- **One active-time limit**, exactly for the packages that declare a
`max_run_seconds` below the planner's 300: in every reachable state the
reconciler stops a run of the package for its active time only when the
frozen policy does too. -/
theorem one_active_limit {raw : RawPolicy} {policy : PackagePolicy}
    (h : PackagePolicy.modelValidate raw = .ok policy) :
    (∀ limits es run, run ∈ (reach limits es).db.runs.rows →
      run.executionPolicy = some policy.executionPolicy →
        StopsAsFrozen (reach limits es) run) ↔
      ∃ n, raw.maxRunSeconds = some n ∧ n < 300 := by
  obtain ⟨hmax, hvalid⟩ := PackagePolicy.modelValidate_ok h
  constructor
  · intro hall
    by_contra hnone
    have hmem := Table.mem_of_find? (reach_longRun h).1
    refine stopped_early h (fun n hn => ?_) (hall {} (longRun raw) _ hmem rfl)
    by_contra hlt
    exact hnone ⟨n, hn, by omega⟩
  · rintro ⟨n, hn, hlt⟩ limits es run hrun hpolicy now db' hstop
    have hms := activeLimitReached_ms (plansDefault_reach limits es)
      (repairActiveElapsedTimeout_true hstop)
    have hover : n * 1000 < (run.activeElapsedMs : Int) := by omega
    refine ⟨⟨n, ?_, hover⟩, (assertCanContinue_active hpolicy hvalid).mpr ⟨n, ?_, hover⟩⟩
    · rw [hpolicy]
      exact hmax.trans hn
    · exact hmax.trans hn

/-- The policy of a package that is limited to two minutes. -/
def twoMinutes : PackagePolicy :=
  { waitingHumanTimeoutAction := "failed"
    waitingHumanFallbackNode := none
    maxModelCalls := none
    maxModelCost := none
    maxTokens := none
    maxSteps := none
    maxToolCalls := none
    maxRunSeconds := some 120
    maxAutoRetryPerStep := none }

theorem one_active_limit_two_minutes :
    StopsAsFrozen (reach {} (longRun { maxRunSeconds := some 120 })) (longRow twoMinutes) := by
  have hvalid : PackagePolicy.modelValidate { maxRunSeconds := some 120 } = .ok twoMinutes := rfl
  have hmem := Table.mem_of_find? (reach_longRun hvalid).1
  exact (one_active_limit hvalid).mpr ⟨120, rfl, by decide⟩ {} _ _ hmem rfl

/-- A package allowed ten minutes is stopped after five. -/
theorem active_limit_differs :
    ¬ ∀ (raw : RawPolicy) (policy : PackagePolicy), PackagePolicy.modelValidate raw = .ok policy →
      ∀ limits es run, run ∈ (reach limits es).db.runs.rows →
        run.executionPolicy = some policy.executionPolicy →
          StopsAsFrozen (reach limits es) run := by
  intro hall
  have hvalid : ∃ policy, PackagePolicy.modelValidate { maxRunSeconds := some 600 } = .ok policy :=
    ⟨_, rfl⟩
  obtain ⟨policy, hpolicy⟩ := hvalid
  have hmem := Table.mem_of_find? (reach_longRun hpolicy).1
  refine stopped_early hpolicy (fun n hn => ?_) (hall _ policy hpolicy {} _ _ hmem rfl)
  cases hn
  decide

end AgentRuntime
