import AgentRuntime.PublishDocument
import Mathlib

/-!
# Publications whose outcome is not known

`publishFate` says what can be known of a publication from what happened on the
wire: the request certainly had no effect, it was carried out, or neither is
certain. The node tells these apart by the class of the exception, and of
those that leave the outcome open it knows only the timeouts:
`recorded_rightly_iff`.
-/

namespace AgentRuntime

open Keyed Interleave ToolCallAuditService

/-- What is known of a request. -/
inductive PublishFate
  | notApplied | applied | ambiguous
  deriving DecidableEq, Repr

/-- The response is a rejection by the contract. -/
def answersError (g : ToolGateway) (response : HttpResponse) : Bool :=
  response.isError && (parseToolError g.wireVersion response).isOk

/-- The response is a result by the contract, with a revision and a digest. -/
def answersPublication (g : ToolGateway) (response : HttpResponse) : Bool :=
  response.isSuccess &&
    match g.parseResult response with
    | .ok output => (publication g.text output).isSome
    | .error _ => false

/-- A request is known to be rejected or carried out only from a response by
the contract that comes from the peer it was sent to. -/
def publishFate (g : ToolGateway) : Wire → PublishFate
  | .stopped _ => .notApplied
  | .failed e => if e.mayHaveReached then .ambiguous else .notApplied
  | .answered response =>
    if g.peerVerified response && answersError g response then .notApplied
    else if g.peerVerified response && answersPublication g response then .applied
    else .ambiguous

/-- The status the worker records for the attempt, if any: it takes the reply
at `s` and settles at `s'`. -/
def recordedAs (limits : AdmissionLimits) (s s' : Publishing) (w : Publisher) :
    Option ToolCallStatus :=
  match (s.turn limits w).2.phase with
  | .settling i record outcome =>
    let settled := persistResult s'.sys.db s'.sys.clock s'.toolCalls record outcome (s'.context i)
    if settled.2 then (settled.1[record]?).map (·.status) else none
  | _ => none

/-- The lease lets the worker settle the attempt. -/
def settles (s : Publishing) (i record : Nat) : Bool :=
  (s.toolCalls[record]?).any (fun call =>
    mayWrite s.sys.db s.sys.clock call.runId (s.context i))

/-- An open outcome is recorded as unknown, and `failed` only where the
request had no effect. -/
def RecordsRightly (g : ToolGateway) (wire : Wire) (status : Option ToolCallStatus) : Prop :=
  (publishFate g wire = .ambiguous → status = some .outcomeUnknown) ∧
    (status = some .failed → publishFate g wire = .notApplied)

instance (g : ToolGateway) (wire : Wire) (status : Option ToolCallStatus) :
    Decidable (RecordsRightly g wire status) := by
  unfold RecordsRightly; infer_instance

/-- The calls the node has a clause for: they did not leave the worker, or
timed out while the worker may still write, or were answered by the contract
and by the right peer. -/
def Handled (g : ToolGateway) (may : Bool) : Wire → Prop
  | .stopped _ => True
  | .failed e => e.mayHaveReached = true → e.isTimeout = true ∧ may = true
  | .answered response =>
    g.peerVerified response = true ∧
      (answersError g response = true ∨ answersPublication g response = true)

variable {g : ToolGateway}

theorem publishFate_answered (response : HttpResponse) :
    publishFate g (.answered response) ≠ .ambiguous ↔
      g.peerVerified response = true ∧
        (answersError g response = true ∨ answersPublication g response = true) := by
  simp only [publishFate]
  cases g.peerVerified response <;> cases answersError g response <;>
    cases answersPublication g response <;> decide

/-- The node has a clause for every call whose outcome is known. -/
theorem handled_of_fate {may : Bool} {wire : Wire} (h : publishFate g wire ≠ .ambiguous) :
    Handled g may wire := by
  cases wire with
  | stopped code => trivial
  | failed e =>
    intro hreach
    exact absurd (if_pos hreach) h
  | answered response => exact (publishFate_answered response).mp h

theorem reached_of_ambiguous {e : RequestError} (h : publishFate g (.failed e) = .ambiguous) :
    e.mayHaveReached = true := by
  by_contra hno
  simp only [publishFate, if_neg hno] at h
  cases h

/-- Of the calls whose outcome is open the node has a clause for timeouts
alone. -/
theorem not_handled {may : Bool} {wire : Wire} (h : publishFate g wire = .ambiguous)
    (hother : ∀ e, wire = .failed e → e.isTimeout = false) : ¬ Handled g may wire := by
  intro hhandled
  cases wire with
  | stopped code => cases h
  | failed e =>
    have htimeout := (hhandled (reached_of_ambiguous h)).1
    rw [hother e rfl] at htimeout
    cases htimeout
  | answered response => exact (publishFate_answered response).mpr hhandled h

/-- The gateway tells a rejection by the contract from all else. -/
theorem call_answered {response : HttpResponse} (hpeer : g.peerVerified response = true)
    (hno : answersError g response = false) :
    (∃ code, g.call (.answered response) = .error (.other code)) ∨
      (∃ n, n ≠ 409 ∧ g.call (.answered response) = .error (.httpStatus n)) ∨
      ∃ output, g.parseResult response = .ok output ∧ response.isSuccess = true ∧
        g.call (.answered response) = .ok output := by
  simp only [ToolGateway.call, hpeer, not_true_eq_false, if_false]
  by_cases herror : response.isError = true
  · rw [if_pos herror]
    unfold answersError at hno
    cases hparse : parseToolError g.wireVersion response with
    | error code => exact Or.inl ⟨code, rfl⟩
    | ok e =>
      rw [herror, hparse] at hno
      cases hno
  · rw [if_neg herror]
    by_cases hsuccess : response.isSuccess = true
    · rw [if_neg (not_not_intro hsuccess)]
      cases hparse : g.parseResult response with
      | error code => exact Or.inl ⟨code, rfl⟩
      | ok output => exact Or.inr (Or.inr ⟨output, rfl, hsuccess, rfl⟩)
    · rw [if_pos hsuccess]
      refine Or.inr (Or.inl ⟨_, fun h => herror ?_, rfl⟩)
      simp [HttpResponse.isError, h]

/-- Where the outcome is open the node knows the timeouts; all else it
settles as failed, or raises over. -/
theorem publishOutcome_of_ambiguous {wire : Wire} (h : publishFate g wire = .ambiguous)
    (digest : String) (reconciled : Except GatewayError (Option Summary)) :
    (∃ e, wire = .failed e ∧ e.isTimeout = true ∧
      publishOutcome g.text digest (g.call wire) reconciled = some (unknown "HTTP_TIMEOUT")) ∨
    ((∀ e, wire = .failed e → e.isTimeout = false) ∧
      ∀ outcome ∈ publishOutcome g.text digest (g.call wire) reconciled,
        outcome.status = .failed) := by
  cases wire with
  | stopped code => cases h
  | failed e =>
    by_cases ht : e.isTimeout = true
    · refine Or.inl ⟨e, rfl, ht, ?_⟩
      simp only [ToolGateway.call, if_pos ht, publishOutcome]
    · refine Or.inr ⟨fun e' he => ?_, fun outcome houtcome => ?_⟩
      · cases he
        simpa using ht
      · simp only [ToolGateway.call, if_neg ht, publishOutcome, Option.mem_some_iff] at houtcome
        rw [← houtcome]
        rfl
  | answered response =>
    refine Or.inr ⟨fun e he => (nomatch he), fun outcome houtcome => ?_⟩
    have hopen : ¬ (g.peerVerified response = true ∧
        (answersError g response = true ∨ answersPublication g response = true)) :=
      fun hno => (publishFate_answered response).mpr hno h
    by_cases hpeer : g.peerVerified response = true
    · have hno : answersError g response = false := by
        simpa using fun he => hopen ⟨hpeer, Or.inl he⟩
      rcases call_answered hpeer hno with ⟨code, hcall⟩ | ⟨n, hn, hcall⟩ |
        ⟨output, hparse, hsuccess, hcall⟩
      · rw [hcall, publishOutcome, Option.mem_some_iff] at houtcome
        rw [← houtcome]
        rfl
      · simp only [hcall, publishOutcome, if_neg hn, Option.mem_some_iff] at houtcome
        rw [← houtcome]
        rfl
      · -- a result without a revision or a digest: the node raises over it
        rw [hcall, publishOutcome] at houtcome
        have hread : (publication g.text output).isSome = true :=
          Option.isSome_of_mem houtcome
        refine absurd (And.intro hpeer (Or.inr ?_)) hopen
        simpa [answersPublication, hsuccess, hparse] using hread
    · have hcall : g.call (.answered response)
          = .error (.other "BUSINESS_CONNECTOR_PEER_MISMATCH") := by
        simp only [ToolGateway.call, if_pos hpeer]
      simp only [hcall, publishOutcome, Option.mem_some_iff] at houtcome
      rw [← houtcome]
      rfl

theorem publication_status {text : PyText} {output : Summary} {outcome : ToolCallOutcome}
    (h : publication text output = some outcome) : outcome.status = .succeeded := by
  unfold publication at h
  split at h
  · cases h
    rfl
  · cases h

/-- A result by the contract is what the gateway returns. -/
theorem call_publication {response : HttpResponse} (hpeer : g.peerVerified response = true)
    (h : answersPublication g response = true) :
    ∃ output, g.call (.answered response) = .ok output ∧
      ∃ outcome, publication g.text output = some outcome := by
  unfold answersPublication at h
  rw [Bool.and_eq_true] at h
  obtain ⟨hsuccess, hread⟩ := h
  have herror : response.isError = false := by
    simp only [HttpResponse.isSuccess, HttpResponse.isError, decide_eq_true_eq,
      decide_eq_false_iff_not] at hsuccess ⊢
    omega
  cases hparse : g.parseResult response with
  | error code =>
    rw [hparse] at hread
    cases hread
  | ok output =>
    rw [hparse] at hread
    refine ⟨output, ?_, Option.isSome_iff_exists.mp hread⟩
    simp [ToolGateway.call, hpeer, herror, hsuccess, hparse]

/-- A known publication is settled as such. -/
theorem publishOutcome_of_applied {wire : Wire} (h : publishFate g wire = .applied) (digest : String)
    (reconciled : Except GatewayError (Option Summary)) :
    ∃ outcome, publishOutcome g.text digest (g.call wire) reconciled = some outcome ∧
      outcome.status = .succeeded := by
  cases wire with
  | stopped code => cases h
  | failed e =>
    simp only [publishFate] at h
    split at h <;> cases h
  | answered response =>
    simp only [publishFate, Bool.and_eq_true] at h
    split at h
    · cases h
    · split at h
      next hpublished =>
        obtain ⟨output, hcall, outcome, hread⟩ := call_publication hpublished.1 hpublished.2
        exact ⟨outcome, by rw [hcall]; exact hread, publication_status hread⟩
      · cases h

/-! ## The recorded status -/

variable {limits : AdmissionLimits} {s s' : Publishing} {w : Publisher} {i record : Nat}
  {digest : String} {e : Execution}

/-- Of an attempt its worker raises over nothing is recorded. -/
theorem recordedAs_left
    (h : publishOutcome e.gateway.text digest (e.gateway.call (s.wire i e))
      (e.gateway.getPublishResult e.reconciled) = none) :
    recordedAs limits s s' { w with phase := .sending i record digest e } = none := by
  simp only [recordedAs, Publishing.turn, h, Publishing.settleNext]

/-- An attempt that is settled gets the status of the outcome. -/
theorem recordedAs_settled {outcome : ToolCallOutcome}
    (h : publishOutcome e.gateway.text digest (e.gateway.call (s.wire i e))
      (e.gateway.getPublishResult e.reconciled) = some outcome) :
    recordedAs limits s s' { w with phase := .sending i record digest e }
      = if settles s' i record = true then some outcome.status else none := by
  simp only [recordedAs, Publishing.turn, h, Publishing.settleNext]
  rcases persistResult_cases s'.sys.db s'.sys.clock s'.toolCalls record outcome (s'.context i) with
    ⟨row, hrow, hmay, heq⟩ | ⟨hno, heq⟩
  · have hsettles : settles s' i record = true := by
      simpa [settles, hrow] using hmay
    rw [heq, if_pos hsettles]
    simp [hrow, AgentToolCall.settle]
  · have hsettles : settles s' i record = false := by
      rcases Option.eq_none_or_eq_some s'.toolCalls[record]? with hrow | ⟨row, hrow⟩
      · simp [settles, hrow]
      · simpa [settles, hrow] using hno row hrow
    rw [heq, hsettles]
    rfl

/-- **When a publication is recorded rightly**: exactly where the node has a
clause for what happened on the wire. -/
theorem recorded_rightly_iff (limits : AdmissionLimits) (s s' : Publishing) (w : Publisher)
    (i record : Nat) (digest : String) (e : Execution) :
    RecordsRightly e.gateway (s.wire i e)
        (recordedAs limits s s' { w with phase := .sending i record digest e }) ↔
      Handled e.gateway (settles s' i record) (s.wire i e) := by
  cases hfate : publishFate e.gateway (s.wire i e) with
  | notApplied =>
    exact iff_of_true ⟨fun h => (nomatch hfate.symm.trans h), fun _ => hfate⟩
      (handled_of_fate (by rw [hfate]; decide))
  | applied =>
    refine iff_of_true ⟨fun h => (nomatch hfate.symm.trans h), fun hfailed => ?_⟩
      (handled_of_fate (by rw [hfate]; decide))
    obtain ⟨outcome, houtcome, hstatus⟩ := publishOutcome_of_applied hfate digest
      (e.gateway.getPublishResult e.reconciled)
    rw [recordedAs_settled houtcome, hstatus] at hfailed
    split at hfailed <;> cases hfailed
  | ambiguous =>
    rcases publishOutcome_of_ambiguous hfate digest (e.gateway.getPublishResult e.reconciled) with
      ⟨failure, hwire, htimeout, houtcome⟩ | ⟨hother, hfailed⟩
    · -- a timeout: recorded as unknown where the lease still allows it
      rw [recordedAs_settled houtcome]
      by_cases hmay : settles s' i record = true
      · rw [if_pos hmay, hwire]
        exact iff_of_true ⟨fun _ => rfl, fun hfailed => (nomatch hfailed)⟩
          (fun _ => ⟨htimeout, hmay⟩)
      · rw [if_neg hmay]
        refine iff_of_false (fun hrecords => (nomatch hrecords.1 hfate)) (fun hhandled => ?_)
        rw [hwire] at hfate hhandled
        exact hmay (hhandled (reached_of_ambiguous hfate)).2
    · -- anything else is recorded as failed, or not at all
      refine iff_of_false (fun hrecords => ?_) (not_handled hfate hother)
      have hunknown := hrecords.1 hfate
      cases houtcome : publishOutcome e.gateway.text digest (e.gateway.call (s.wire i e))
          (e.gateway.getPublishResult e.reconciled) with
      | none =>
        rw [recordedAs_left houtcome] at hunknown
        cases hunknown
      | some outcome =>
        rw [recordedAs_settled houtcome, hfailed outcome houtcome] at hunknown
        split at hunknown <;> cases hunknown

/-! ## A connection reset while the response is read -/

def sampleGateway : ToolGateway := { text := ⟨Char.isDigit, String.toInt?⟩ }

/-- A publication that comes to `reply` on the wire. -/
def sampleExecution (reply : Wire) : Execution :=
  { gateway := sampleGateway, digest := some "d1", reply := reply, reconciled := .stopped "" }

/-- A worker on its last execution. -/
def samplePublisher : Publisher :=
  { runId := "run-1", owner := "worker-1", leaseSeconds := 90, executions := [] }

def publishCommand : CreateRunCommand :=
  { sampleCommand .auto with
    input := .obj [("archive_id", .str "archive-1"), ("snapshot_id", .str "snapshot-1"),
      ("generation_epoch", .int 1)] }

/-- A run is created, and a worker claims it and begins a publication. -/
def beganPublish (reply : Wire) : World Publishing PublishCall :=
  Runs.run (Publishing.program {}).step (Publishing.start {} 0)
    [⟨0, .call (.lifecycle (.register [samplePackage]))⟩, ⟨0, .advance 0⟩,
     ⟨0, .call (.lifecycle (.create "run-1" publishCommand "caller" "tenant" 1))⟩,
     ⟨0, .advance 1⟩,
     ⟨0, .call (.worker "run-1" "worker-1" 90 [sampleExecution reply])⟩,
     ⟨0, .advance 2⟩, ⟨0, .advance 2⟩, ⟨0, .advance 2⟩]

/-- The request left the worker and nothing is known of it, but the attempt
is recorded as failed. -/
theorem reset_recorded_failed :
    (beganPublish (.failed .readError)).calls[2]? = some (.worker { samplePublisher with
      phase := .sending 0 0 "d1" (sampleExecution (.failed .readError)) }) ∧
    ¬ RecordsRightly sampleGateway
      ((beganPublish (.failed .readError)).shared.wire 0 (sampleExecution (.failed .readError)))
      (recordedAs {} (beganPublish (.failed .readError)).shared
        (beganPublish (.failed .readError)).shared
        { samplePublisher with
          phase := .sending 0 0 "d1" (sampleExecution (.failed .readError)) }) :=
  ⟨by cbv, by decide +kernel⟩

end AgentRuntime
