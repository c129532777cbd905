import AgentRuntime.NoRequeue
import AgentRuntime.ToolCallAudit

/-!
# What a purge has erased

`complete_purge` takes the checkpoints of a run away and the summaries of its
steps, artifacts and tool calls. A worker that still holds a context of the run
writes nothing more: the run is finished and cancelled, so no claim is granted
again, and what the worker writes is checked against its lease. The exception
is a tool call without a context: `_begin` and `_persist_result` check the lease
only of a caller that gives one, and `call_native` gives none.

`PrivateDb` is the system with the two tables that `Db` leaves out.
`sealed_iff` says that a purge is final along a run exactly if no call
without a context is begun or settled for a purged run.

Mirroring notes:
- An operation is atomic, the check of the lease and the write it allows are
  one step.
- The rows that a purge wipes are those of the runs that the operation has
  marked as purged; `complete_purge` does both in one transaction.
-/

namespace AgentRuntime

open Keyed Fencing Runs

/-! ## The private data of the lifecycle -/

/-- The private data of the run has been purged. -/
def isPurged (db : Db) (q : String) : Bool :=
  (db.runs.find? q).any fun run => decide (run.privacyState = .purged)

theorem isPurged_iff {db : Db} {q : String} :
    isPurged db q = true ↔ ∃ run, db.runs.find? q = some run ∧ run.privacyState = .purged := by
  unfold isPurged
  rw [Option.any_eq_true]
  simp only [decide_eq_true_eq]

/-- What holds of the database at any time: a purge comes with a cancellation,
and a purged run is held by nobody and has nothing private left. -/
structure PurgesKept (db : Db) : Prop where
  cancelled : ∀ q r, db.runs.find? q = some r → r.privacyState ≠ .active →
    r.cancelRequestedAt ≠ none
  unheld : ∀ q, isPurged db q = true → Unheld db q
  veiled : ∀ q, isPurged db q = true → Veiled db q

variable {limits : AdmissionLimits} {now : Time} {causes : Cause → AgentRun → Prop}

/-- A cancelled run is not claimed. -/
theorem Move.unclaimed {r r' : AgentRun} {shift : Shift} {event : Option String}
    (h : Move limits now causes r r' shift event) (hcancel : r.cancelRequestedAt ≠ none)
    (hd : r.dispatchState ≠ .claimed) : r'.dispatchState ≠ .claimed := by
  cases h with
  | claim hclaimable => exact absurd hclaimable.2.2 hcancel
  | start | retry | approve | reap | fallback => exact DispatchState.noConfusion
  | cancelNow | reject | finish | pause | terminate => exact DispatchState.noConfusion
  | _ => exact hd

/-- Settling a run writes nothing private. -/
theorem settle_veiled {db db' : Db} {run : AgentRun} {shift : Shift} {event : Option String}
    (h : settle db run shift event = .ok db') {q : String} (hq : Veiled db q) : Veiled db' q := by
  obtain ⟨db₁, hshift, hev⟩ := settle_ok.mp h
  have h₁ : Veiled db₁ q := by
    cases shift with
    | none =>
      cases hshift
      exact hq.of_eq rfl rfl
    | some shift =>
      obtain ⟨_, rfl, _⟩ := transitionRun_ok hshift
      exact hq.of_eq rfl rfl
  cases event with
  | none =>
    cases hev
    exact h₁
  | some event =>
    obtain ⟨_, _, rfl⟩ := appendCallbackEvent_ok hev
    exact h₁.of_eq rfl rfl

namespace PurgesKept

/-- The rows and the private data of the runs that nobody holds are as they
were. -/
theorem same {db db' : Db} (h : PurgesKept db) (hs : SameLedger db db') : PurgesKept db' := by
  have hpurged : ∀ q, isPurged db' q = isPurged db q := fun q => by
    unfold isPurged
    rw [hs.runs]
  refine ⟨fun q r hfind => h.cancelled q r (hs.runs ▸ hfind), fun q hq => ?_, fun q hq => ?_⟩
  · exact hs.unheld (h.unheld q (hpurged q ▸ hq))
  · exact hs.veiled q (h.unheld q (hpurged q ▸ hq)) (h.veiled q (hpurged q ▸ hq))

/-- A run has been created. -/
theorem created {db db₁ : Db} {run : AgentRun} {runs : RunTable} {plans : List AgentPlan}
    (h : PurgesKept db) (hactive : run.privacyState = .active)
    (hins : db.runs.insert? run = some runs)
    (hadm : transitionRun limits { db with runs := runs } run none run.dispatchState = .ok db₁) :
    PurgesKept { db₁ with plans := plans } := by
  obtain ⟨buckets, rfl, _⟩ := transitionRun_ok hadm
  have hrow : ∀ q, runs.find? q = if q = run.runId then some run else db.runs.find? q :=
    Table.find?_insert? hins
  -- a run that is purged was there before
  have hold : ∀ q, (runs.find? q).any (fun r => decide (r.privacyState = .purged)) = true →
      runs.find? q = db.runs.find? q ∧ isPurged db q = true := by
    intro q hq
    rw [hrow q] at hq ⊢
    by_cases hid : q = run.runId
    · rw [if_pos hid] at hq
      rw [Option.any_some, hactive] at hq
      cases hq
    · rw [if_neg hid] at hq ⊢
      exact ⟨rfl, hq⟩
  refine ⟨fun q r hfind hp => ?_, fun q hq r hfind => ?_, fun q hq => ?_⟩
  · rw [show Table.find? runs q = _ from hrow q] at hfind
    by_cases hid : q = run.runId
    · rw [if_pos hid] at hfind
      cases hfind
      exact absurd hactive hp
    · rw [if_neg hid] at hfind
      exact h.cancelled q r hfind hp
  · obtain ⟨hsame, hpurged⟩ := hold q hq
    exact h.unheld q hpurged r (hsame.symm.trans hfind)
  · exact (h.veiled q (hold q hq).2).of_eq rfl rfl

/-- A row has been moved, and if that was its purge, nothing private is left. -/
theorem moved {id : String} {db db₁ db' : Db} {r r' : AgentRun} {shift : Shift}
    {event : Option String} (h : PurgesKept db) (hfind : db.runs.find? id = some r)
    (hmove : Move limits now causes r r' shift event) (hset : settle db r' shift event = .ok db₁)
    (hs : SameLedger db₁ db')
    (hgone : r.privacyState ≠ .purged → r'.privacyState = .purged →
      Unheld db' id ∧ Veiled db' id) : PurgesKept db' := by
  have hid : r'.runId = id := hmove.runId_eq.trans (Table.key_of_find? hfind)
  have hrow : db'.runs.find? id = some (r'.afterEvent event) := by
    rw [hs.runs, ← hid]
    exact (settle_seen (hid ▸ hfind) hset).1
  have hother : ∀ q, q ≠ id → db'.runs.find? q = db.runs.find? q := fun q hq => by
    rw [hs.runs]
    exact settle_find?_ne hset (hid ▸ hq)
  have hset' : ∀ r₁, db'.runs.find? id = some r₁ →
      r₁.privacyState = r'.privacyState ∧ r₁.dispatchState = r'.dispatchState ∧
        r₁.cancelRequestedAt = r'.cancelRequestedAt := by
    intro r₁ hr₁
    rw [hrow] at hr₁
    cases hr₁
    exact ⟨privacyState_afterEvent _ _, dispatchState_afterEvent _ _,
      cancelRequestedAt_afterEvent _ _⟩
  -- the run that was moved, if it is purged now
  have hmoved : isPurged db' id = true → Unheld db' id ∧ Veiled db' id := by
    intro hpurged
    obtain ⟨r₁, hr₁, hp₁⟩ := isPurged_iff.mp hpurged
    rw [(hset' r₁ hr₁).1] at hp₁
    by_cases hbefore : r.privacyState = .purged
    · have hwas : isPurged db id = true := isPurged_iff.mpr ⟨r, hfind, hbefore⟩
      have hcancel : r.cancelRequestedAt ≠ none :=
        h.cancelled id r hfind (by rw [hbefore]; decide)
      have hunclaimed := hmove.unclaimed hcancel (h.unheld id hwas r hfind)
      have hunheld₁ : Unheld db₁ id := by
        intro r₂ hr₂
        rw [← hs.runs] at hr₂
        rw [(hset' r₂ hr₂).2.1]
        exact hunclaimed
      exact ⟨hs.unheld hunheld₁, hs.veiled id hunheld₁ (settle_veiled hset (h.veiled id hwas))⟩
    · exact hgone hbefore hp₁
  have hkept : ∀ q, q ≠ id → isPurged db' q = true → isPurged db q = true := by
    intro q hq hpurged
    unfold isPurged at hpurged ⊢
    rwa [hother q hq] at hpurged
  refine ⟨fun q r₁ hfind' hp => ?_, fun q hpurged => ?_, fun q hpurged => ?_⟩
  · by_cases hq : q = id
    · subst hq
      obtain ⟨hprivacy, _, hcancel⟩ := hset' r₁ hfind'
      rw [hprivacy] at hp
      rw [hcancel]
      obtain ⟨hsticky, hsame | hset | hpurge⟩ := hmove.cancel_sticky
      · exact hsticky (h.cancelled q r hfind (hsame ▸ hp))
      · exact hset
      · exact hsticky (h.cancelled q r hfind (by rw [hpurge]; decide))
    · rw [hother q hq] at hfind'
      exact h.cancelled q r₁ hfind' hp
  · by_cases hq : q = id
    · subst hq
      exact (hmoved hpurged).1
    · intro r₁ hfind'
      rw [hother q hq] at hfind'
      exact h.unheld q (hkept q hq hpurged) r₁ hfind'
  · by_cases hq : q = id
    · subst hq
      exact (hmoved hpurged).2
    · have hwas := hkept q hq hpurged
      have hunheld₁ : Unheld db₁ q := by
        intro r₁ hfind'
        rw [← hs.runs, hother q hq] at hfind'
        exact h.unheld q hwas r₁ hfind'
      exact hs.veiled q hunheld₁ (settle_veiled hset (h.veiled q hwas))

theorem turn {id : String} {db db' : Db} (h : PurgesKept db)
    (hturn : Turn limits now causes id db db') : PurgesKept db' := by
  cases hturn with
  | idle hs => exact h.same hs
  | create run command definition policy callerId tenantId av hrun runs hins db₁ hadm plan _ hs =>
    exact (h.created (by rw [hrun]; rfl) hins hadm).same hs
  | move r r' shift event hfind hmove db₁ hset hs hgone =>
    exact h.moved hfind hmove hset hs hgone

theorem turns {ids : List String} {db db' : Db} (h : PurgesKept db)
    (hturns : Turns limits now causes ids db db') : PurgesKept db' := by
  induction hturns with
  | nil hs => exact h.same hs
  | cons hturn _ ih => exact ih (h.turn hturn)

theorem step {s : Sys} (h : PurgesKept s.db) (e : Event) :
    PurgesKept (AgentRuntime.step limits s e).db := by
  rcases step_cases limits s e with ⟨db, issued, hok, hs⟩ | hs
  · rw [hs]
    obtain ⟨_, _, hturns⟩ := perform_turns hok
    exact h.turns hturns
  · rw [hs]
    exact h

end PurgesKept

/-! ## The summaries of tool calls and artifacts -/

/-- A row of `agent_artifacts`. -/
structure AgentArtifact where
  runId : String
  artifactType : String
  summary : Option Summary

/-- The call without its summaries. -/
def AgentToolCall.wiped (call : AgentToolCall) : AgentToolCall :=
  { call with inputSummary := none, outputSummary := none }

def AgentArtifact.wiped (artifact : AgentArtifact) : AgentArtifact :=
  { artifact with summary := none }

/-- `ArtifactStore.save_node_result`; none where it raises. -/
def saveNodeResult (db : Db) (now : Time) (artifacts : List AgentArtifact) (runId nodeId : String)
    (resultKeys : List String) (ctx : LeaseContext) : Option (List AgentArtifact) :=
  if LeaseService.canWrite db now runId ctx = false then none
  else if nodeId = "" then none
  else
    some (artifacts ++ [{
      runId := runId
      artifactType := "workflow_node_result"
      summary := some [("node_id", .str nodeId),
        ("result_keys", .arr ((resultKeys.mergeSort fun a b => decide (a ≤ b)).map .str))] }])

/-- `step.output_summary = …`, for a worker that holds the run. -/
def summarize (db : Db) (runId : String) (ctx : LeaseContext) (stepId : String)
    (summary : StepOutputSummary) : Db :=
  match db.runs.find? runId with
  | none => db
  | some run =>
    if run.OwnedBy ctx ∧ run.executionAttempt = ctx.executionAttempt then
      { db with steps := db.steps.map fun s =>
          if s.stepId = stepId ∧ s.runId = runId then { s with outputSummary := some summary }
          else s }
    else db

/-! ## The whole system -/

/-- The system, the tool calls and the artifacts. -/
structure PrivateDb where
  sys : Sys := {}
  toolCalls : List AgentToolCall := []
  artifacts : List AgentArtifact := []

/-- What happens: an operation, the summary of a step or the artifact of a node
is written, a tool call is begun or settled, or the calls that have been running
for too long are given up. A context is any one, whoever holds it. -/
inductive PrivateEvent
  | op (e : Event)
  | summarizes (elapsed : Time) (runId : String) (ctx : LeaseContext) (stepId : String)
      (summary : StepOutputSummary)
  | savesNode (elapsed : Time) (runId nodeId : String) (resultKeys : List String)
      (ctx : LeaseContext)
  | begins (elapsed : Time) (request : ToolCallRequest)
  | settles (elapsed : Time) (record : Nat) (outcome : ToolCallOutcome)
      (ctx : Option LeaseContext)
  | givesUp (elapsed : Time)

/-- The run is purged by what leads from `before` to `after`. -/
def purgedBy (before after : Db) (q : String) : Bool :=
  isPurged after q && !isPurged before q

namespace PrivateDb

/-- An operation of the system; `complete_purge` wipes the rows of the run. -/
def operates (limits : AdmissionLimits) (w : PrivateDb) (e : Event) : PrivateDb :=
  let sys := step limits w.sys e
  { sys := sys
    toolCalls := w.toolCalls.map fun call =>
      if purgedBy w.sys.db sys.db call.runId then call.wiped else call
    artifacts := w.artifacts.map fun artifact =>
      if purgedBy w.sys.db sys.db artifact.runId then artifact.wiped else artifact }

/-- Some time passes. -/
def passes (w : PrivateDb) (elapsed : Time) : PrivateDb :=
  { w with sys := { w.sys with clock := w.sys.clock + elapsed } }

def happens (limits : AdmissionLimits) (w : PrivateDb) : PrivateEvent → PrivateDb
  | .op e => w.operates limits e
  | .summarizes elapsed runId ctx stepId summary =>
    let w := w.passes elapsed
    { w with sys := { w.sys with db := summarize w.sys.db runId ctx stepId summary } }
  | .savesNode elapsed runId nodeId resultKeys ctx =>
    let w := w.passes elapsed
    match saveNodeResult w.sys.db w.sys.clock w.artifacts runId nodeId resultKeys ctx with
    | some artifacts => { w with artifacts := artifacts }
    | none => w
  | .begins elapsed request =>
    let w := w.passes elapsed
    match ToolCallAuditService.begin_ w.sys.db w.sys.clock w.toolCalls request with
    | .ok toolCalls => { w with toolCalls := toolCalls }
    | .error _ => w
  | .settles elapsed record outcome ctx =>
    let w := w.passes elapsed
    let result := ToolCallAuditService.persistResult w.sys.db w.sys.clock w.toolCalls record outcome
      ctx
    { w with toolCalls := result.1 }
  | .givesUp elapsed =>
    let w := w.passes elapsed
    let toolCalls := ReconciliationService.markStaleToolCallsUnknown w.toolCalls w.sys.clock
    { w with toolCalls := toolCalls }

/-- The state after what has happened, from an empty database. -/
def reach (limits : AdmissionLimits) (es : List PrivateEvent) : PrivateDb :=
  Runs.run (happens limits) {} es

/-- Nothing private of the run is left. -/
structure Erased (w : PrivateDb) (q : String) : Prop where
  veiled : Veiled w.sys.db q
  toolCalls : ∀ call ∈ w.toolCalls, call.runId = q →
    call.inputSummary = none ∧ call.outputSummary = none
  artifacts : ∀ artifact ∈ w.artifacts, artifact.runId = q → artifact.summary = none

/-- No purged run has private data. -/
def Sealed (w : PrivateDb) : Prop :=
  ∀ q, isPurged w.sys.db q = true → w.Erased q

/-- `_begin` lets the call through, the lease apart: the tool budget is not used
up, and the operation has been begun with no other key or digest. -/
def Accepts (w : PrivateDb) (request : ToolCallRequest) : Prop :=
  assertToolCallAllowed w.sys.db w.toolCalls request.runId request.stepId = .ok () ∧
    ∀ item ∈ chain w.toolCalls request.runId request.logicalKey,
      item.idempotencyKey = request.idempotencyKey ∧ item.requestDigest = request.requestDigest

/-- No tool call of a purged run is begun or settled without a context. -/
def Spares (w : PrivateDb) : PrivateEvent → Prop
  | .begins _ request =>
    request.leaseContext = none → isPurged w.sys.db request.runId = true → ¬ w.Accepts request
  | .settles _ record outcome ctx =>
    ctx = none → outcome.outputSummary ≠ none →
      ∀ call, w.toolCalls[record]? = some call → isPurged w.sys.db call.runId = false
  | _ => True

/-! ## One step -/

variable {w : PrivateDb}

/-- What holds at any time, along a run in which purges are final. -/
structure Secret (w : PrivateDb) : Prop where
  kept : PurgesKept w.sys.db
  tight : w.Sealed

theorem not_purged_of_canWrite {db : Db} {q : String} {ctx : LeaseContext}
    (h : LeaseService.canWrite db now q ctx = true) : isPurged db q = false := by
  unfold LeaseService.canWrite at h
  unfold isPurged
  cases hfind : db.runs.find? q with
  | none => rfl
  | some run =>
    rw [hfind] at h
    obtain ⟨_, ⟨_, hactive, _⟩, _⟩ := of_decide_eq_true h
    rw [Option.any_some, hactive]
    rfl

theorem operates_secret (h : w.Secret) (e : Event) : (w.operates limits e).Secret := by
  have hkept : PurgesKept (step limits w.sys e).db := h.kept.step e
  refine ⟨hkept, fun q hq => ?_⟩
  -- the run is purged by the operation, or it was before
  have hby : purgedBy w.sys.db (step limits w.sys e).db q = true ∨ isPurged w.sys.db q = true := by
    change isPurged (step limits w.sys e).db q = true at hq
    unfold purgedBy
    rw [hq, Bool.true_and]
    cases isPurged w.sys.db q with
    | true => exact .inr rfl
    | false => exact .inl rfl
  have hcall : ∀ call : AgentToolCall,
      call.wiped.inputSummary = none ∧ call.wiped.outputSummary = none := fun _ => ⟨rfl, rfl⟩
  have hartifact : ∀ artifact : AgentArtifact, artifact.wiped.summary = none := fun _ => rfl
  let gone : String → Prop := fun q => purgedBy w.sys.db (step limits w.sys e).db q = true
  refine ⟨hkept.veiled q hq, ?_, ?_⟩
  · exact @wipe_rows _ _ _ _ _ gone _ _ _ hcall
      (hby.imp_right fun hwas => (h.tight q hwas).toolCalls)
  · exact @wipe_rows _ _ _ _ _ gone _ _ _ hartifact
      (hby.imp_right fun hwas => (h.tight q hwas).artifacts)

/-- Time alone changes nothing. -/
theorem passes_secret (h : w.Secret) (elapsed : Time) : (w.passes elapsed).Secret :=
  ⟨h.kept, fun q hq => ⟨(h.tight q hq).veiled, (h.tight q hq).toolCalls,
    (h.tight q hq).artifacts⟩⟩

/-- Other tool calls, in which no purged run has a summary. -/
theorem toolCalls_secret (h : w.Secret) {toolCalls : List AgentToolCall}
    (hcalls : ∀ q, isPurged w.sys.db q = true → ∀ call ∈ toolCalls, call.runId = q →
      call.inputSummary = none ∧ call.outputSummary = none) :
    Secret { w with toolCalls := toolCalls } :=
  ⟨h.kept, fun q hq => ⟨(h.tight q hq).veiled, hcalls q hq, (h.tight q hq).artifacts⟩⟩

/-- A worker writes the summary of a step of the run it holds, which is not
purged. -/
theorem summarize_secret (h : w.Secret) (runId : String) (ctx : LeaseContext) (stepId : String)
    (summary : StepOutputSummary) :
    Secret { w with sys := { w.sys with
      db := summarize w.sys.db runId ctx stepId summary } } := by
  unfold summarize
  cases hfind : w.sys.db.runs.find? runId with
  | none => exact h
  | some run =>
    dsimp only
    by_cases hown : run.OwnedBy ctx ∧ run.executionAttempt = ctx.executionAttempt
    · rw [if_pos hown]
      -- the rows are those of a run that is held
      have hveiled : ∀ q, isPurged w.sys.db q = true →
          Veiled { w.sys.db with steps := w.sys.db.steps.map fun s =>
            if s.stepId = stepId ∧ s.runId = runId then { s with outputSummary := some summary }
            else s } q := by
        intro q hq
        refine ⟨(h.tight q hq).veiled.checkpoints, fun s hs hrun => ?_⟩
        obtain ⟨before, hmem, rfl⟩ := List.mem_map.mp hs
        by_cases hstep : before.stepId = stepId ∧ before.runId = runId
        · rw [if_pos hstep] at hrun
          change before.runId = q at hrun
          have hheld : w.sys.db.runs.find? q = some run := by rw [← hrun, hstep.2, hfind]
          exact absurd hown.1.1 (h.kept.unheld q hq run hheld)
        · rw [if_neg hstep] at hrun ⊢
          exact (h.tight q hq).veiled.steps before hmem hrun
      exact ⟨⟨h.kept.cancelled, h.kept.unheld, hveiled⟩,
        fun q hq => ⟨hveiled q hq, (h.tight q hq).toolCalls, (h.tight q hq).artifacts⟩⟩
    · rw [if_neg hown]
      exact h

/-- An artifact is only saved for a run that may be written. -/
theorem savesNode_secret (h : w.Secret) {runId nodeId : String} {resultKeys : List String}
    {ctx : LeaseContext} {artifacts : List AgentArtifact}
    (hsaved : saveNodeResult w.sys.db now w.artifacts runId nodeId resultKeys ctx
      = some artifacts) : Secret { w with artifacts := artifacts } := by
  unfold saveNodeResult at hsaved
  split at hsaved
  · cases hsaved
  next hwritable =>
    split at hsaved
    · cases hsaved
    · cases hsaved
      refine ⟨h.kept, fun q hq => ⟨(h.tight q hq).veiled, (h.tight q hq).toolCalls,
        fun artifact hmem hrun => ?_⟩⟩
      rcases List.mem_append.mp hmem with hold | hnew
      · exact (h.tight q hq).artifacts artifact hold hrun
      · rw [List.mem_singleton.mp hnew] at hrun
        change runId = q at hrun
        have hactive := not_purged_of_canWrite (eq_true_of_ne_false hwritable)
        rw [hrun] at hactive
        exact absurd (hactive.symm.trans hq) Bool.false_ne_true

/-- The lease of a caller that gives a context is checked. -/
theorem not_purged_of_mayWrite {db : Db} {q : String} {ctx : Option LeaseContext}
    (h : ToolCallAuditService.mayWrite db now q ctx = true) :
    ctx = none ∨ isPurged db q = false := by
  cases ctx with
  | none => exact .inl rfl
  | some ctx => exact .inr (not_purged_of_canWrite h)

/-- What `_begin` does, by what it checks. -/
theorem begin_ok_iff {request : ToolCallRequest} {toolCalls : List AgentToolCall} :
    ToolCallAuditService.begin_ w.sys.db now w.toolCalls request = .ok toolCalls ↔
      ToolCallAuditService.mayWrite w.sys.db now request.runId request.leaseContext = true ∧
        w.Accepts request ∧
        toolCalls = w.toolCalls ++ [request.row w.toolCalls.length
          (chain w.toolCalls request.runId request.logicalKey).length now] := by
  constructor
  · intro h
    obtain ⟨hmay, hsame, hcalls⟩ := ToolCallAuditService.begin_ok h
    refine ⟨hmay, ⟨?_, hsame⟩, hcalls⟩
    unfold ToolCallAuditService.begin_ at h
    rw [if_pos hmay] at h
    cases hallowed : assertToolCallAllowed w.sys.db w.toolCalls request.runId request.stepId with
    | ok => rfl
    | error code =>
      rw [hallowed] at h
      cases h
  · rintro ⟨hmay, ⟨hallowed, hsame⟩, rfl⟩
    unfold ToolCallAuditService.begin_
    rw [if_pos hmay, hallowed]
    dsimp only
    rw [if_neg]
    intro hany
    obtain ⟨item, hitem, hdiffers⟩ := List.any_eq_true.mp hany
    rcases of_decide_eq_true hdiffers with hkey | hdigest
    · exact hkey (hsame item hitem).1
    · exact hdigest (hsame item hitem).2

/-- A begun call is one of a run that is not purged. -/
theorem begun_secret (h : w.Secret) {request : ToolCallRequest} {toolCalls : List AgentToolCall}
    (hspares : request.leaseContext = none → isPurged w.sys.db request.runId = true →
      ¬ w.Accepts request)
    (hbegun : ToolCallAuditService.begin_ w.sys.db now w.toolCalls request = .ok toolCalls) :
    Secret { w with toolCalls := toolCalls } := by
  obtain ⟨hmay, haccepts, rfl⟩ := begin_ok_iff.mp hbegun
  refine toolCalls_secret h fun q hq call hcall hrun => ?_
  rcases List.mem_append.mp hcall with hold | hnew
  · exact (h.tight q hq).toolCalls call hold hrun
  · rw [List.mem_singleton.mp hnew] at hrun
    change request.runId = q at hrun
    rw [← hrun] at hq
    rcases not_purged_of_mayWrite hmay with hnone | hactive
    · exact absurd haccepts (hspares hnone hq)
    · exact absurd (hactive.symm.trans hq) Bool.false_ne_true

/-- A call that is settled with a summary is one of a run that is not purged. -/
theorem settled_secret (h : w.Secret) {record : Nat} {outcome : ToolCallOutcome}
    {ctx : Option LeaseContext}
    (hspares : ctx = none → outcome.outputSummary ≠ none →
      ∀ call, w.toolCalls[record]? = some call → isPurged w.sys.db call.runId = false) :
    Secret { w with toolCalls := (ToolCallAuditService.persistResult w.sys.db now w.toolCalls
      record outcome ctx).1 } := by
  rcases ToolCallAuditService.persistResult_cases w.sys.db now w.toolCalls record outcome ctx with
    ⟨settled, hsettled, hmay, hresult⟩ | ⟨_, hresult⟩
  · rw [hresult]
    refine toolCalls_secret h fun q hq call hcall hrun => ?_
    obtain ⟨n, hn⟩ := List.mem_iff_getElem?.mp hcall
    rw [List.getElem?_modify] at hn
    obtain ⟨before, hbefore, hcall'⟩ := Option.map_eq_some_iff.mp hn
    have hmem : before ∈ w.toolCalls := List.mem_of_getElem? hbefore
    by_cases hn' : record = n
    · rw [if_pos hn'] at hcall'
      rw [← hcall'] at hrun ⊢
      change before.runId = q at hrun
      have hsame : before = settled := by
        rw [hn', hbefore] at hsettled
        exact Option.some.inj hsettled
      rw [← hsame] at hmay
      refine ⟨((h.tight q hq).toolCalls before hmem hrun).1, ?_⟩
      rw [← hrun] at hq
      -- with a lease the run is not purged, and without one nothing is told
      by_contra hsome
      rcases not_purged_of_mayWrite hmay with hnone | hactive
      · have hactive := hspares hnone hsome before (hn' ▸ hbefore)
        exact absurd (hactive.symm.trans hq) Bool.false_ne_true
      · exact absurd (hactive.symm.trans hq) Bool.false_ne_true
    · rw [if_neg hn'] at hcall'
      rw [← hcall'] at hrun ⊢
      exact (h.tight q hq).toolCalls before hmem hrun
  · rw [hresult]
    exact h

/-- A call that is given up keeps its summaries. -/
theorem givenUp_secret (h : w.Secret) (current : Time) :
    Secret { w with toolCalls :=
      ReconciliationService.markStaleToolCallsUnknown w.toolCalls current } := by
  refine toolCalls_secret h fun q hq call hcall hrun => ?_
  obtain ⟨before, hmem, rfl⟩ := List.mem_map.mp hcall
  have hbefore := (h.tight q hq).toolCalls before hmem
  unfold ReconciliationService.markStale at hrun ⊢
  split at hrun
  next hstale =>
    rw [if_pos hstale]
    exact hbefore hrun
  next hstale =>
    rw [if_neg hstale]
    exact hbefore hrun

/-- What every step keeps that spares the purged runs. -/
theorem happens_secret {e : PrivateEvent} (h : w.Secret) (hspares : w.Spares e) :
    (w.happens limits e).Secret := by
  cases e with
  | op e => exact operates_secret h e
  | summarizes elapsed runId ctx stepId summary =>
    exact summarize_secret (passes_secret h elapsed) runId ctx stepId summary
  | savesNode elapsed runId nodeId resultKeys ctx =>
    unfold happens
    dsimp only
    split
    next hsaved => exact savesNode_secret (passes_secret h elapsed) hsaved
    next => exact passes_secret h elapsed
  | begins elapsed request =>
    unfold happens
    dsimp only
    split
    next hbegun => exact begun_secret (passes_secret h elapsed) hspares hbegun
    next => exact passes_secret h elapsed
  | settles elapsed record outcome ctx =>
    exact settled_secret (passes_secret h elapsed) hspares
  | givesUp elapsed => exact givenUp_secret (passes_secret h elapsed) _

/-- A step after which no purged run has private data spares the purged runs. -/
theorem spares_of_sealed {e : PrivateEvent} (h : (w.happens limits e).Sealed) : w.Spares e := by
  cases e with
  | begins elapsed request =>
    intro hnone hpurged haccepts
    -- the row of the call says what is asked for
    have hbegun : ToolCallAuditService.begin_ w.sys.db (w.sys.clock + elapsed) w.toolCalls request
        = .ok (w.toolCalls ++ [request.row w.toolCalls.length
          (chain w.toolCalls request.runId request.logicalKey).length (w.sys.clock + elapsed)]) :=
      begin_ok_iff.mpr ⟨by rw [hnone]; rfl, haccepts, rfl⟩
    unfold happens at h
    dsimp only [passes] at h
    rw [hbegun] at h
    have hinput := ((h request.runId hpurged).toolCalls _
      (List.mem_append_right _ (List.mem_singleton_self _)) rfl).1
    cases hinput
  | settles elapsed record outcome ctx =>
    intro hnone hsome call hcall
    by_contra hpurged
    rw [Bool.not_eq_false] at hpurged
    -- the row of the call says what came out
    have hresult : ToolCallAuditService.persistResult w.sys.db (w.sys.clock + elapsed) w.toolCalls
        record outcome ctx = (w.toolCalls.modify record (fun call => call.settle outcome), true) := by
      unfold ToolCallAuditService.persistResult
      rw [hcall, hnone]
      exact if_pos rfl
    unfold happens at h
    dsimp only [passes] at h
    rw [hresult] at h
    have hmem : call.settle outcome ∈ w.toolCalls.modify record fun call => call.settle outcome := by
      refine List.mem_of_getElem? (i := record) ?_
      rw [List.getElem?_modify, hcall]
      exact congrArg some (if_pos rfl)
    exact hsome ((h call.runId hpurged).toolCalls _ hmem rfl).2
  | op | summarizes | savesNode | givesUp => trivial

end PrivateDb

/-! ## A run -/

/-- **A purge is final** along a run, in every state it comes to, exactly if no
tool call of a purged run is begun or settled without a context. -/
theorem sealed_iff (limits : AdmissionLimits) (es : List PrivateEvent) :
    (∀ before, before <+: es → (PrivateDb.reach limits before).Sealed) ↔
      Along (PrivateDb.happens limits) PrivateDb.Spares {} es := by
  constructor
  · intro h
    refine along_of_steps es ({} : PrivateDb) fun before e after hes => ?_
    have hprefix : before ++ [e] <+: es := ⟨after, by rw [hes, List.append_assoc]; rfl⟩
    have hsealed := h _ hprefix
    unfold PrivateDb.reach at hsealed
    rw [run_append] at hsealed
    exact PrivateDb.spares_of_sealed hsealed
  · rintro h before ⟨after, rfl⟩
    have hempty : PrivateDb.Secret {} :=
      ⟨⟨fun _ _ hfind => (by cases hfind), fun _ hq => (by cases hq), fun _ hq => (by cases hq)⟩,
        fun _ hq => (by cases hq)⟩
    have hbefore := ((along_append before after _).mp h).1
    have hsecret : PrivateDb.Secret (PrivateDb.reach limits before) :=
      along_inv (I := PrivateDb.Secret) (fun _ _ => PrivateDb.happens_secret) before
        ({} : PrivateDb) hempty hbefore
    exact hsecret.tight

/-- The attempt that `begin_native` asks for: it gives no context. -/
def nativeRequest (runId : String) (executionAttempt : Nat) (stepId toolName logicalKey
    requestDigest : String) : ToolCallRequest where
  runId := runId
  executionAttempt := executionAttempt
  stepId := stepId
  toolName := toolName
  toolVersion := some "1.0.0"
  transport := "native"
  logicalKey := logicalKey
  idempotencyKey := logicalKey
  requestDigest := requestDigest
  inputSummary := [("operation", .str toolName)]
  sideEffect := false

theorem beginNative_eq (db : Db) (calls : List AgentToolCall) (runId : String)
    (executionAttempt : Nat) (stepId toolName logicalKey requestDigest : String) :
    ToolCallAuditService.beginNative db now calls runId executionAttempt stepId toolName logicalKey
        requestDigest
      = ToolCallAuditService.begin_ db now calls
        (nativeRequest runId executionAttempt stepId toolName logicalKey requestDigest) := rfl

/-- A worker holds a run; its private data is to be purged, the worker lets go of
it, and the reconciler purges it. -/
def purgedRun : List PrivateEvent :=
  (claimedRun ++ [after 1 (.purge "run-1" "caller"), after 1 (.finishAfterInvalidBoundary 0),
    after 1 (.repairRun "run-1" none)]).map .op

/-- The worker then calls a native tool. -/
def zombieCall : PrivateEvent :=
  .begins (seconds 1) (nativeRequest "run-1" 1 "evaluate" "runtime.contains_sensitive_identifier"
    "run-1:evaluate:scan" "sha256:2")

/-- The attempt is written to the run that has been purged. -/
theorem purged_run_written :
    isPurged (PrivateDb.reach {} purgedRun).sys.db "run-1" = true ∧
      ¬ ∀ (limits : AdmissionLimits) (es before : List PrivateEvent), before <+: es →
        (PrivateDb.reach limits before).Sealed := by
  have hpurged : isPurged (PrivateDb.reach {} (purgedRun ++ [zombieCall])).sys.db "run-1" = true :=
    by decide +kernel
  refine ⟨by decide +kernel, fun h => ?_⟩
  have hsealed := h {} (purgedRun ++ [zombieCall]) _ (List.prefix_refl _) "run-1" hpurged
  have hwritten : (PrivateDb.reach {} (purgedRun ++ [zombieCall])).toolCalls.any
      (fun call => decide (call.runId = "run-1") && call.inputSummary.isSome) = true := by
    decide +kernel
  obtain ⟨call, hmem, hcall⟩ := List.any_eq_true.mp hwritten
  rw [Bool.and_eq_true, decide_eq_true_iff] at hcall
  rw [(hsealed.toolCalls call hmem hcall.1).1] at hcall
  exact Bool.false_ne_true hcall.2

end AgentRuntime
