import AgentRuntime.ResumedOnce

/-!
# A fallback that was decided

When the wait for a human ends in the fallback, the row of the run says so in
its error code, and the attempt that reads it goes on at the fallback node
(`OnFallback`). It takes the code off the row as it begins. `fallback_kept`: as
long as every later attempt reads the code on the row, or comes to no node, none
of them runs a node in front of the fallback node.
-/

namespace AgentRuntime

open Keyed Runs

variable {limits : AdmissionLimits}

/-! ## What is asked for -/

namespace Crew

/-- After a decision for the fallback the attempts run nothing in front of the
fallback node. -/
def StaysOnFallback (c : Crew) : Prop :=
  ∀ d ∈ c.decisions, ∀ w ∈ c.fleet.workers, w.runId = d.runId →
    d.executionAttempt < w.executionAttempt →
      ∀ t ∈ w.plan.fallbackPolicy.waitingHumanFallbackNode, ∀ nodeId ∈ w.state.invoked,
        nodeId ∈ (fromTarget (some t) w.plan.steps).map (·.nodeId)

/-- What an attempt finds before its first node. -/
def finds (c : Crew) (held : Issued) (p : Prologue) : Prologue :=
  { p with mayWrite := LeaseService.canWrite c.fleet.sys.db c.fleet.sys.clock held.runId held.ctx }

/-- An attempt after the decision finds it on the row, or is refused. -/
def ReadsFallback (c : Crew) : CrewEvent → Prop
  | .begins i p =>
    ∀ held ∈ c.fleet.sys.issued[i]?, ∀ run ∈ c.fleet.sys.db.runs.find? held.runId,
      (∃ d ∈ c.decisions, d.runId = held.runId ∧
        d.executionAttempt < held.ctx.executionAttempt) →
      run.errorCode = some "WAITING_HUMAN_FALLBACK" ∨
        ((c.finds held p).refusal run.runId).isSome = true
  | _ => True

instance (c : Crew) : (e : CrewEvent) → Decidable (c.ReadsFallback e)
  | .begins i p =>
    inferInstanceAs (Decidable (∀ held ∈ c.fleet.sys.issued[i]?,
      ∀ run ∈ c.fleet.sys.db.runs.find? held.runId, _ →
        _ ∨ ((c.finds held p).refusal run.runId).isSome = true))
  | .op _ | .reads _ | .claims .. | .visits .. => inferInstanceAs (Decidable True)

end Crew

/-! ## An attempt at the fallback -/

/-- The worker has run nodes at or after the target only, and only such are
left: it has ended, it is on its way to the target, or it is past it. -/
structure OnFallback (t : String) (w : PlanWorker) : Prop where
  invoked : ∀ nodeId ∈ w.state.invoked, nodeId ∈ (fromTarget (some t) w.plan.steps).map (·.nodeId)
  left : w.state.ended ≠ none ∨
    (w.state.skipping = some t ∧ fromTarget (some t) w.left = fromTarget (some t) w.plan.steps) ∨
    (w.state.skipping = none ∧ ∀ node ∈ w.left, node ∈ fromTarget (some t) w.plan.steps)

/-- An attempt that begins with the decision on the row is on its way to the
fallback node. -/
theorem opening_fallback (a : AttemptContext) {p : Prologue} {run : AgentRun}
    {resumed : Option (Option CheckpointState)} {s : Executing}
    (h : a.opening p run resumed = some s)
    (hcode : run.errorCode = some "WAITING_HUMAN_FALLBACK") :
    s.invoked = [] ∧ s.skipping = a.plan.fallbackPolicy.waitingHumanFallbackNode := by
  have hfirst : ∀ {ids : List String} {from? : Option String},
      a.atFirstNode p run ids from? = some s →
        s.invoked = [] ∧ s.skipping = a.plan.fallbackPolicy.waitingHumanFallbackNode := by
    intro ids from? hs
    unfold AttemptContext.atFirstNode at hs
    split at hs
    next nodes target _ htarget _ =>
      cases hs
      refine ⟨rfl, ?_⟩
      show target = _
      unfold fallbackTarget at htarget
      rw [if_pos hcode] at htarget
      split at htarget
      · cases htarget
      · split at htarget
        next hplan =>
          cases htarget
          exact hplan.1.symm
        · cases htarget
    · cases hs
  cases resumed with
  | none => exact hfirst h
  | some loaded =>
    cases loaded with
    | none => cases h
    | some state =>
      unfold AttemptContext.opening at h
      dsimp only at h
      split at h
      · exact hfirst h
      · cases h

/-- An attempt that is refused comes to no node. -/
theorem opening_admitted (a : AttemptContext) {p : Prologue} {run : AgentRun}
    {resumed : Option (Option CheckpointState)} {s : Executing}
    (h : a.opening p run resumed = some s) : p.refusal run.runId = none := by
  have hfirst : ∀ {ids : List String} {from? : Option String},
      a.atFirstNode p run ids from? = some s → p.refusal run.runId = none := by
    intro ids from? hs
    unfold AttemptContext.atFirstNode at hs
    split at hs
    next hnone => exact hnone
    · cases hs
  cases resumed with
  | none => exact hfirst h
  | some loaded =>
    cases loaded with
    | none => cases h
    | some state =>
      unfold AttemptContext.opening at h
      dsimp only at h
      split at h
      · exact hfirst h
      · cases h

namespace OnFallback

variable {t : String} {w : PlanWorker}

/-- A visit keeps a worker at the fallback there. -/
theorem visited (h : OnFallback t w) (run : AgentRun) {node : PlanNode} {rest : List PlanNode}
    (turn : NodeTurn) (hleft : w.left = node :: rest) :
    OnFallback t (w.visited run node rest turn) := by
  -- a node that is entered is at or after the target, and so is what is left behind it
  have henters : node ∈ fromTarget (some t) w.plan.steps →
      (∀ other ∈ rest, other ∈ fromTarget (some t) w.plan.steps) →
      VisitInvokes { w.state with run := run } node (w.visited run node rest turn).state →
      OnFallback t (w.visited run node rest turn) := by
    intro hnode hrest hinvokes
    refine ⟨fun nodeId hmem => ?_, ?_⟩
    · rcases hinvokes.invoked with hsame | ⟨_, hmore⟩
      · rw [hsame] at hmem
        exact h.invoked nodeId hmem
      · rw [hmore] at hmem
        rcases List.mem_append.mp hmem with hold | hnew
        · exact h.invoked nodeId hold
        · rw [List.mem_singleton.mp hnew]
          exact List.mem_map_of_mem hnode
    · by_cases hended : (w.visited run node rest turn).state.ended = none
      · exact .inr (.inr ⟨hinvokes.skipping hended, hrest⟩)
      · exact .inl hended
  rcases (w.meets turn).visit_invokes { w.state with run := run } node with
    ⟨hsame, hwhy⟩ | ⟨hopen, hskipping, hinvokes⟩
  · -- the attempt has ended, or the node is in front of the target
    have hstate : (w.visited run node rest turn).state = { w.state with run := run } := hsame
    refine ⟨by rw [hstate]; exact h.invoked, ?_⟩
    rw [hstate]
    rcases hwhy with hended | ⟨t', hskipping, hne⟩
    · exact .inl hended
    rcases h.left with hended | ⟨hskipping', hfrom⟩ | ⟨hskipping', _⟩
    · exact .inl hended
    · have ht : t' = t := Option.some.inj (hskipping.symm.trans hskipping')
      refine .inr (.inl ⟨hskipping', ?_⟩)
      rw [hleft, fromTarget_cons_of_ne (ht ▸ hne)] at hfrom
      exact hfrom
    · exact absurd (hskipping.symm.trans hskipping') (Option.some_ne_none t')
  · rcases h.left with hended | ⟨hskipping', hfrom⟩ | ⟨hskipping', hall⟩
    · exact absurd hopen hended
    · have hnode : node.nodeId = t := by
        rcases hskipping with hnone | hsome
        · exact absurd (hskipping'.symm.trans hnone) (Option.some_ne_none t)
        · exact Option.some.inj (hsome.symm.trans hskipping')
      rw [hleft, fromTarget_cons_of_eq hnode] at hfrom
      rw [← hfrom] at henters
      exact henters List.mem_cons_self (fun _ hother => List.mem_cons_of_mem _ hother) hinvokes
    · rw [hleft] at hall
      exact henters (hall node List.mem_cons_self)
        (fun other hother => hall other (List.mem_cons_of_mem _ hother)) hinvokes

end OnFallback

/-! ## A run -/

/-- Every attempt after a decision is at the fallback. -/
def Crew.OnFallback (c : Crew) : Prop :=
  ∀ d ∈ c.decisions, ∀ w ∈ c.fleet.workers, w.runId = d.runId →
    d.executionAttempt < w.executionAttempt →
      ∀ t ∈ w.plan.fallbackPolicy.waitingHumanFallbackNode, AgentRuntime.OnFallback t w

theorem onFallback_happens {c : Crew} {e : CrewEvent} (h : c.OnFallback)
    (hmanned : Manned c.fleet) (hreads : c.ReadsFallback e) :
    (c.happens limits e).OnFallback := by
  have hstep := c.happens_step limits e
  have hmanned' := Crew.manned_step hmanned hstep
  generalize c.happens limits e = c' at hstep hmanned' ⊢
  intro d hd w hw hid hlt t ht
  cases hstep with
  | quiet _ _ hworkers _ _ hdecisions =>
    rcases hdecisions d hd with hold | ⟨run, hrun, hattempt⟩
    · rw [hworkers] at hw
      exact h d hold w hw hid hlt t ht
    · -- nobody is past the attempt at which the decision was made
      have hle := hmanned'.attempt_le hw (hid ▸ hrun)
      omega
  | begins i p _ w' hbegun hworkers _ _ hdecisions =>
    rw [hdecisions] at hd
    rw [hworkers] at hw
    rcases List.mem_append.mp hw with hold | hnew
    · exact h d hd w hold hid hlt t ht
    rw [List.mem_singleton.mp hnew] at hid hlt ht ⊢
    obtain ⟨held, status, run, hheld, _, hrun, _, hrunId, hattempt, hleft, hopening⟩ :=
      hbegun.started
    have hcode : run.errorCode = some "WAITING_HUMAN_FALLBACK" := by
      rcases hreads held hheld run hrun ⟨d, hd, hid.symm.trans hrunId, hattempt ▸ hlt⟩ with
        hcode | hrefused
      · exact hcode
      · have hadmitted : (c.finds held p).refusal run.runId = none := opening_admitted _ hopening
        rw [hadmitted] at hrefused
        cases hrefused
    obtain ⟨hinvoked, hskipping⟩ := opening_fallback _ hopening hcode
    refine ⟨fun nodeId hmem => ?_, .inr (.inl ⟨hskipping.trans ht, ?_⟩)⟩
    · rw [hinvoked] at hmem
      exact absurd hmem List.not_mem_nil
    · rw [hleft]
  | visits j turn _ w' run node rest hw' _ hleft hfleet _ hdecisions =>
    rw [hdecisions] at hd
    rw [hfleet] at hw
    rcases Remembered.worker_cases hw' (visited_further w' run node rest turn) hw with
      hold | ⟨rfl, hmem, hfurther⟩
    · exact h d hd w hold hid hlt t ht
    · exact (h d hd w' hmem (hfurther.runId.symm.trans hid) (hfurther.executionAttempt ▸ hlt) t
        (hfurther.plan ▸ ht)).visited run turn hleft

/-- **A fallback is kept.** If in a run every attempt after a decision for the
fallback finds the decision on the row or is refused, none of these attempts runs
a node in front of the fallback node, whatever crashes, leases that run out and
claims come in between. -/
theorem fallback_kept (limits : AdmissionLimits) (es : List CrewEvent)
    (h : Along (Crew.happens limits) Crew.ReadsFallback {} es) :
    (Crew.reach limits es).StaysOnFallback := by
  have hinit : Manned ({} : Crew).fleet ∧ ({} : Crew).OnFallback :=
    ⟨CheckpointsStored.init.manned, fun _ hd => (nomatch hd)⟩
  have hinv : Manned (Crew.reach limits es).fleet ∧ (Crew.reach limits es).OnFallback :=
    along_inv (I := fun c : Crew => Manned c.fleet ∧ c.OnFallback)
      (fun (c : Crew) e hI hreads => ⟨Crew.manned_step hI.1 (c.happens_step limits e),
        onFallback_happens hI.2 hI.1 hreads⟩) es {} hinit h
  exact fun d hd w hw hid hlt t ht => (hinv.2 d hd w hw hid hlt t ht).invoked

/-- The package, with a fallback for a human who does not answer. -/
def impatientPackage : AgentDefinition :=
  let policy : RawPolicy :=
    { waitingHumanTimeoutAction := some "fallback", waitingHumanFallbackNode := some "publish" }
  { samplePackage with definitionJson := { samplePackage.definitionJson with policy := policy } }

/-- The first worker waits for a human, who does not answer in an hour. -/
def timedOutAttempt : List CrewEvent :=
  [.op (after 0 (.register [impatientPackage])),
   .op (after 0 (.create "run-1" (sampleCommand .auto) "caller" "tenant" 1)),
   .reads "run-1", .claims 0 "worker-1" 0 90, .begins 0 {},
   .visits 0 { stepId := "step-1", outcome := .completed false true false },
   .op (after 1 (.pauseForHuman 0 3600)), .op (after 3600 (.repairRun "run-1" none))]

/-- The second worker goes on at the fallback. -/
theorem timedOut_fallback_kept :
    (Crew.reach {} (timedOutAttempt ++ secondAttempt)).fleet.workers.map (fun w => w.state.invoked)
        = [["draft"], ["publish"]] ∧
      (Crew.reach {} (timedOutAttempt ++ secondAttempt)).StaysOnFallback :=
  ⟨by decide +kernel, fallback_kept {} (timedOutAttempt ++ secondAttempt) (by decide +kernel)⟩

-- the second worker dies as soon as it has begun, and has taken the code off the row
example : (Crew.reach {} (timedOutAttempt ++ secondAttempt.take 3 ++
    [.op (after 91 .reapExpired), .reads "run-1", .claims 2 "worker-3" 0 90, .begins 2 {},
     .visits 2 { stepId := "step-2" }])).fleet.workers.map (fun w => w.state.invoked)
      = [["draft"], [], ["draft"]] := by
  decide +kernel

end AgentRuntime
