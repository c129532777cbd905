import AgentRuntime.AmbiguousPublish
import AgentRuntime.PublishChain

/-!
# Publishing again after failed attempts

`find_publish_attempt` passes over failed attempts, so that the document may
be published anew with whatever digest it has by then. `_begin` compares the
digest with those of all earlier attempts, failed ones included. So a worker
whose run has failed attempts only begins its next one exactly when the
document has kept its digest, in every run of workers, services and
reconcilers: `republish_accepted_iff`.
-/

namespace AgentRuntime

open Keyed Interleave Runs ToolCallAuditService

/-! ## The rule of the audit -/

/-- The idempotency key of every attempt is the key of its operation. -/
def KeyedByOperation (calls : List AgentToolCall) : Prop :=
  ∀ call ∈ calls, call.idempotencyKey = call.logicalOperationKey

/-- The lease and the tool budget let the node begin an attempt. -/
def MayBegin (db : Db) (now : Time) (calls : List AgentToolCall) (runId : String)
    (ctx : LeaseContext) : Prop :=
  mayWrite db now runId (some ctx) = true ∧
    assertToolCallAllowed db calls runId "publish_document" = .ok ()

/-- Every attempt of the operation carries the digest. -/
def SameDigest (calls : List AgentToolCall) (runId key digest : String) : Prop :=
  ∀ call ∈ calls, call.AttemptOf runId key → call.requestDigest = digest

instance (calls : List AgentToolCall) (runId key digest : String) :
    Decidable (SameDigest calls runId key digest) := by
  unfold SameDigest; infer_instance

/-- The next attempt of the operation is running, and the last row. -/
def StartsNext (calls calls' : List AgentToolCall) (runId key digest : String) : Prop :=
  ∃ row : AgentToolCall, calls' = calls ++ [row] ∧ row.AttemptOf runId key ∧
    row.requestDigest = digest ∧ row.status = .running ∧
    row.toolAttempt = (chain calls runId key).length + 1

variable {db : Db} {now : Time} {calls : List AgentToolCall} {runId key digest : String}
  {attempt : Nat} {ctx : LeaseContext}

/-- Where nothing else stands in the way an attempt begins if the digest is
that of every earlier one, whatever became of them. -/
theorem beginPublish_of_same (hkeyed : KeyedByOperation calls)
    (hmay : MayBegin db now calls runId ctx) (hsame : SameDigest calls runId key digest) :
    ∃ calls', beginPublish db now calls runId attempt key key digest (some ctx) = .ok calls' ∧
      StartsNext calls calls' runId key digest := by
  have hagree : ¬ (chain calls runId key).any (fun item => decide (item.idempotencyKey ≠ key ∨
      item.requestDigest ≠ digest)) = true := by
    rw [List.any_eq_true]
    rintro ⟨item, hitem, hdiffers⟩
    -- failed attempts are in the chain as well
    obtain ⟨hmem, hof⟩ := mem_chain.mp hitem
    rcases of_decide_eq_true hdiffers with hkey | hdigest
    · exact hkey ((hkeyed item hmem).trans hof.2)
    · exact hdigest (hsame item hmem hof)
  cases hcall : beginPublish db now calls runId attempt key key digest (some ctx) with
  | error code =>
    unfold beginPublish begin_ at hcall
    dsimp only at hcall
    rw [if_pos hmay.1, hmay.2] at hcall
    dsimp only at hcall
    rw [if_neg hagree] at hcall
    cases hcall
  | ok calls' =>
    obtain ⟨_, _, rfl⟩ := begin_ok hcall
    exact ⟨_, rfl, _, rfl, ⟨rfl, rfl⟩, rfl, rfl, rfl⟩

theorem sameDigest_of_begin {calls' : List AgentToolCall}
    (h : beginPublish db now calls runId attempt key key digest (some ctx) = .ok calls') :
    SameDigest calls runId key digest :=
  fun call hmem hof => ((begin_ok h).2.1 call (mem_chain.mpr ⟨hmem, hof⟩)).2

/-! ## The node -/

/-- The execution has found failed attempts of its operation only, and the
lease and the budget let it begin. -/
def MayRetry (s : Publishing) (w : Publisher) (i : Nat) (key : String) : Prop :=
  (s.sys.db.runs.find? w.runId).isSome = true ∧
    (∃ ctx ∈ s.context i, MayBegin s.sys.db s.sys.clock s.toolCalls w.runId ctx) ∧
    AllFailed s.toolCalls w.runId key

/-- An execution that may retry starts the next attempt and is about to send
its request. -/
def RetryAccepted (s : Publishing) : PublishCall → Prop
  | .worker w => ∀ i key digest e, w.phase = .beginning i key digest e → MayRetry s w i key →
      StartsNext s.toolCalls (s.begin_ w i key digest e).1.toolCalls w.runId key digest ∧
        (s.begin_ w i key digest e).2.phase = .sending i s.toolCalls.length digest e
  | _ => True

/-- An execution that may retry has the document of the failed attempts. -/
def DocumentKept (s : Publishing) : PublishCall → Prop
  | .worker w => ∀ i key digest e, w.phase = .beginning i key digest e → MayRetry s w i key →
      SameDigest s.toolCalls w.runId key digest
  | _ => True

variable {s : Publishing} {w : Publisher}

theorem begin_of_ok {run : AgentRun} {i : Nat} {e : Execution} {calls' : List AgentToolCall}
    (hrun : s.sys.db.runs.find? w.runId = some run) (hctx : s.context i = some ctx)
    (h : beginPublish s.sys.db s.sys.clock s.toolCalls w.runId run.executionAttempt key key
      digest (some ctx) = .ok calls') :
    s.begin_ w i key digest e = ({ s with toolCalls := calls' },
      { w with phase := .sending i s.toolCalls.length digest e }) := by
  simp only [Publishing.begin_, hrun, hctx, h]

theorem begin_of_error {run : AgentRun} {i : Nat} {e : Execution} {code : String}
    (hrun : s.sys.db.runs.find? w.runId = some run) (hctx : s.context i = some ctx)
    (h : beginPublish s.sys.db s.sys.clock s.toolCalls w.runId run.executionAttempt key key
      digest (some ctx) = .error code) :
    s.begin_ w i key digest e = (s, { w with phase := .ready i }) := by
  simp only [Publishing.begin_, hrun, hctx, h]

/-- An execution that may retry begins exactly when the document was kept. -/
theorem retryAccepted_iff (hkeyed : KeyedByOperation s.toolCalls) (c : PublishCall) :
    RetryAccepted s c ↔ DocumentKept s c := by
  cases c with
  | worker w =>
    refine forall_congr' fun i => forall_congr' fun key => forall_congr' fun digest =>
      forall_congr' fun e => forall_congr' fun _ => forall_congr' fun hmay => ?_
    obtain ⟨hsome, ⟨ctx, hctx, hbegin⟩, _⟩ := hmay
    obtain ⟨run, hrun⟩ := Option.isSome_iff_exists.mp hsome
    constructor
    · rintro ⟨_, hphase⟩
      cases hcall : beginPublish s.sys.db s.sys.clock s.toolCalls w.runId run.executionAttempt
          key key digest (some ctx) with
      | error code =>
        rw [begin_of_error hrun hctx hcall] at hphase
        cases hphase
      | ok calls' => exact sameDigest_of_begin hcall
    · intro hsame
      obtain ⟨calls', hok, hnext⟩ := beginPublish_of_same hkeyed hbegin hsame
      rw [begin_of_ok hrun hctx hok]
      exact ⟨hnext, rfl⟩
  | _ => exact Iff.rfl

/-! ## Every run -/

theorem keyedByOperation_begin {calls' : List AgentToolCall} (hkeyed : KeyedByOperation calls)
    {ctx : Option LeaseContext}
    (h : beginPublish db now calls runId attempt key key digest ctx = .ok calls') :
    KeyedByOperation calls' := by
  obtain ⟨_, _, rfl⟩ := begin_ok h
  intro call hmem
  rcases List.mem_append.mp hmem with hold | hnew
  · exact hkeyed call hold
  · rw [List.mem_singleton.mp hnew]
    rfl

/-- Statements that settle rows in place keep the keys. -/
theorem KeyedByOperation.of_ids {calls' : List AgentToolCall} (hkeyed : KeyedByOperation calls)
    (hids : calls'.map AgentToolCall.attemptId = calls.map AgentToolCall.attemptId) :
    KeyedByOperation calls' := by
  intro call' hmem
  have hid : call'.attemptId ∈ calls.map AgentToolCall.attemptId := hids ▸ List.mem_map_of_mem hmem
  obtain ⟨call, hcall, heq⟩ := List.mem_map.mp hid
  simp only [AgentToolCall.attemptId, AttemptId.mk.injEq] at heq
  rw [← heq.2.1, ← heq.2.2.1]
  exact hkeyed call hcall

theorem settle_ids (calls : List AgentToolCall) (record : Nat) (outcome : ToolCallOutcome) :
    (calls.modify record (fun call => call.settle outcome)).map AgentToolCall.attemptId
      = calls.map AgentToolCall.attemptId := by
  apply List.ext_getElem?
  intro j
  rw [List.getElem?_map, List.getElem?_map, getElem?_settle]
  split
  · cases calls[j]? <;> rfl
  · rfl

theorem keyedByOperation_turn (limits : AdmissionLimits) (hkeyed : KeyedByOperation s.toolCalls)
    (w : Publisher) : KeyedByOperation (s.turn limits w).1.toolCalls := by
  unfold Publishing.turn
  split
  · unfold Publishing.claim
    dsimp only
    split
    · exact hkeyed
    · exact hkeyed
  · exact hkeyed
  next i key digest e hphase =>
    unfold Publishing.begin_
    split
    · split
      · exact hkeyed
      next calls' hok => exact keyedByOperation_begin hkeyed hok
    · exact hkeyed
  · exact hkeyed
  · exact hkeyed
  next i record outcome hphase =>
    rcases persistResult_cases s.sys.db s.sys.clock s.toolCalls record outcome (s.context i) with
      ⟨_, _, _, heq⟩ | ⟨_, heq⟩
    · rw [heq]
      exact hkeyed.of_ids (settle_ids _ _ _)
    · rw [heq]
      exact hkeyed
  · exact hkeyed

/-- The keys, as a proof outline: nothing is asked of the calls. -/
theorem keyed_outline (limits : AdmissionLimits) :
    Outline (Publishing.program limits) (fun _ _ => True)
      (fun s => KeyedByOperation s.toolCalls) (fun _ _ => True) where
  wait _ _ h := h
  waits _ _ _ _ := trivial
  call _ _ _ _ _ := trivial
  exec s c h _ _ := by
    refine ⟨?_, trivial⟩
    cases c with
    | worker w => exact keyedByOperation_turn limits h w
    | markStale current =>
      refine KeyedByOperation.of_ids h ?_
      show (s.toolCalls.map (ReconciliationService.markStale current)).map AgentToolCall.attemptId
        = s.toolCalls.map AgentToolCall.attemptId
      rw [List.map_map]
      exact List.map_congr_left fun call _ => markStale_attemptId current call
    | lifecycle op => exact h
    | done => exact h
  spares _ _ _ _ _ _ _ := trivial

/-- **When a failed publication can be retried**: in every run of workers,
services and reconcilers, the executions that may retry start their attempt
exactly if each of them has the document of the failed attempts. -/
theorem republish_accepted_iff (limits : AdmissionLimits) (db : Db) (clock : Time)
    (es : List (Interleave.Event PublishAction)) :
    Along (Publishing.program limits).step
        ((Publishing.program limits).Meets RetryAccepted) (Publishing.start db clock) es ↔
      Along (Publishing.program limits).step
        ((Publishing.program limits).Meets DocumentKept) (Publishing.start db clock) es := by
  have hstart : Asserted (fun s => KeyedByOperation s.toolCalls) (fun _ _ => True)
      (Publishing.start db clock) :=
    ⟨fun call hmem => (nomatch hmem), fun _ _ => trivial⟩
  have hkeyed := along_of_inv
    (fun world e h => (keyed_outline limits).step world e h (meets_trivial world e))
    (fun _ _ h => h) es _ hstart
  refine along_congr (fun world e h => ?_) es _ hkeyed
  unfold Program.Meets
  split
  · exact Iff.rfl
  · exact forall_congr' fun c => forall_congr' fun _ => retryAccepted_iff
      (s := (Publishing.program limits).wait world.shared e.elapsed) h.1 c

/-! ## A document that has changed -/

/-- An execution with another document than the rejected one. -/
def changedExecution : Execution :=
  { sampleExecution (.failed .connectError) with digest := some "d2" }

/-- A worker publishes a document, is rejected, and is about to begin again
with another one. -/
def republishing : World Publishing PublishCall :=
  Runs.run (Publishing.program {}).step (Publishing.start {} 0)
    [⟨0, .call (.lifecycle (.register [samplePackage]))⟩, ⟨0, .advance 0⟩,
     ⟨0, .call (.lifecycle (.create "run-1" publishCommand "caller" "tenant" 1))⟩,
     ⟨0, .advance 1⟩,
     ⟨0, .call (.worker "run-1" "worker-1" 90
       [sampleExecution (.failed .connectError), changedExecution])⟩,
     ⟨0, .advance 2⟩, ⟨0, .advance 2⟩, ⟨0, .advance 2⟩, ⟨0, .advance 2⟩, ⟨0, .advance 2⟩,
     ⟨0, .advance 2⟩]

/-- The worker that is about to begin again. -/
def republisher : Publisher :=
  { samplePublisher with
    phase := .beginning 0 "run-1:publish_document:memory.publish_playback_document:1" "d2"
      changedExecution }

/-- The only attempt before it failed, but the new document is refused. -/
theorem changed_document_refused :
    republishing.calls[2]? = some (.worker republisher) ∧
    republishing.shared.toolCalls.map (·.status) = [.failed] ∧
    ¬ RetryAccepted republishing.shared (.worker republisher) := by
  have hstatus : republishing.shared.toolCalls.map (·.status) = [.failed] := by cbv
  refine ⟨by cbv, hstatus, fun haccepted => ?_⟩
  have hphase : (republishing.shared.begin_ republisher 0
      "run-1:publish_document:memory.publish_playback_document:1" "d2" changedExecution).2.phase
      = .ready 0 := by cbv
  have hfailed : AllFailed republishing.shared.toolCalls "run-1"
      "run-1:publish_document:memory.publish_playback_document:1" := by
    intro call hmem _
    have hof : call.status ∈ republishing.shared.toolCalls.map (·.status) :=
      List.mem_map_of_mem hmem
    rw [hstatus] at hof
    exact List.mem_singleton.mp hof
  have hsending := (haccepted 0 _ "d2" changedExecution rfl
    ⟨by cbv, ⟨_, by cbv, by cbv, by cbv⟩, hfailed⟩).2
  rw [hphase] at hsending
  cases hsending

end AgentRuntime
