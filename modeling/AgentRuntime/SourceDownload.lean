import AgentRuntime.Lib.Runs
import Mathlib.Data.List.Infix

/-!
# The read of the default audio source

Mirrors `download_private_bytes`, `_get_object_bytes` and
`_raise_safe_source_error` of `memoir_audio_storage.py`: a caller that waits
for a limited time, a worker thread that reads the object in chunks, and the
thread that closes a response the caller has given up.

Caller and worker meet in a slot under a lock: the worker puts the response body
there, the caller marks that it has gone away and takes what is there. The
regions under the lock are one step each, everything else may happen between
them in any order. `source_read_released` is about every such order: of a body
that was given up exactly one of them is in charge, no body outlives its worker
unclosed, it is closed twice at most, and what the caller returns is all that
was sent, within the limit.

What the store does (refuses, answers without a body, sends chunks, breaks off)
and how long things take is arbitrary. A closed body may go on sending.
-/

namespace AgentRuntime

open Runs

namespace SourceDownload

/-- What a read ends with: the bytes, or the code of the error. -/
inductive Outcome
  | bytes (data : List UInt8)
  | failed (code : String)
  deriving DecidableEq, Repr

/-- `_raise_safe_source_error`. -/
def safeSourceError (rawMessage : List Char) : String :=
  if "NoSuchKey".toList <:+: rawMessage ∨ "404".toList <:+: rawMessage then
    "AUDIO_SOURCE_NOT_FOUND"
  else if "AccessDenied".toList <:+: rawMessage ∨ "403".toList <:+: rawMessage ∨
      "0016-00000901".toList <:+: rawMessage then
    "AUDIO_SOURCE_ACCESS_DENIED"
  else "AUDIO_SOURCE_READ_FAILED"

/-- Where the worker is: before the answer, with the answer before the lock,
behind it, in the loop, before the `finally`, done. -/
inductive WorkerAt
  | asking
  | holding
  | checking
  | reading
  | leaving (outcome : Outcome)
  | ended (outcome : Outcome)
  deriving DecidableEq, Repr

/-- Where the caller is: in `result`, past the deadline, behind the lock, done. -/
inductive CallerAt
  | waiting
  | timedOut
  | abandoning
  | returned (outcome : Outcome)
  deriving DecidableEq, Repr

/-- The thread for a body that was given up. -/
inductive CloserAt
  | absent
  | started
  | ended
  deriving DecidableEq, Repr

/-- One read. `slotBody` and `abandoned` are what the lock guards; `held` says
that the worker has a body, `late` that it came too late, `claimed` that the
caller has taken it from the slot. What was sent and the closes are kept for the
statements. -/
structure Download where
  worker : WorkerAt := .asking
  caller : CallerAt := .waiting
  closer : CloserAt := .absent
  slotBody : Bool := false
  abandoned : Bool := false
  held : Bool := false
  passed : Bool := false
  late : Bool := false
  claimed : Bool := false
  chunks : List UInt8 := []
  sent : List UInt8 := []
  lateCloses : Nat := 0
  closerCloses : Nat := 0
  finalCloses : Nat := 0

/-- What happens next. -/
inductive DownloadEvent
  | refuses (message : List Char)
  | responds (body : Bool)
  | publishes
  | closesLate
  | yields (chunk : List UInt8) (expired : Bool)
  | finishes
  | breaks (message : List Char)
  | releases
  | expires
  | abandons
  | handsOver
  | collects
  | closes

/-- A chunk is there: too much of it ends the read before it is kept, the
deadline after that. -/
def takeChunk (maxBytes : Nat) (s : Download) (chunk : List UInt8) (expired : Bool) : Download :=
  if maxBytes < s.chunks.length + chunk.length then
    { s with
      sent := s.sent ++ chunk
      worker := .leaving (.failed "AUDIO_FILE_TOO_LARGE") }
  else
    { s with
      sent := s.sent ++ chunk
      chunks := s.chunks ++ chunk
      worker := if expired = true then .leaving (.failed "AUDIO_SOURCE_READ_TIMEOUT") else .reading }

/-- One step of a thread, where the thread is at it. -/
def step (maxBytes : Nat) (s : Download) : DownloadEvent → Download
  | .refuses message =>
    if s.worker = .asking then
      { s with worker := .leaving (.failed (safeSourceError message)) }
    else s
  | .responds body => if s.worker = .asking then { s with worker := .holding, held := body } else s
  | .publishes =>
    if s.worker = .holding then
      { s with
        worker := .checking
        passed := true
        late := s.abandoned
        slotBody := if s.abandoned = true then s.slotBody else s.held }
    else s
  | .closesLate =>
    if s.worker = .checking then
      { s with
        worker := .reading
        lateCloses := if s.late = true ∧ s.held = true then s.lateCloses + 1 else s.lateCloses }
    else s
  | .yields chunk expired =>
    if s.worker = .reading ∧ s.held = true then takeChunk maxBytes s chunk expired else s
  | .finishes =>
    if s.worker = .reading ∧ s.held = true then
      { s with worker := .leaving (.bytes s.chunks) }
    else s
  | .breaks message =>
    if s.worker = .reading then
      { s with worker := .leaving (.failed (safeSourceError message)) }
    else s
  | .releases =>
    match s.worker with
    | .leaving outcome =>
      { s with
        worker := .ended outcome
        finalCloses := if s.held = true then s.finalCloses + 1 else s.finalCloses }
    | _ => s
  | .expires =>
    match s.caller, s.worker with
    | .waiting, .ended _ => s
    | .waiting, _ => { s with caller := .timedOut }
    | _, _ => s
  | .abandons =>
    if s.caller = .timedOut then
      { s with
        caller := .abandoning
        abandoned := true
        claimed := s.slotBody }
    else s
  | .handsOver =>
    if s.caller = .abandoning then
      { s with
        caller := .returned (.failed "AUDIO_SOURCE_READ_TIMEOUT")
        closer := if s.claimed = true then .started else s.closer }
    else s
  | .collects =>
    match s.caller, s.worker with
    | .waiting, .ended outcome => { s with caller := .returned outcome }
    | _, _ => s
  | .closes =>
    if s.closer = .started then
      { s with
        closer := .ended
        closerCloses := s.closerCloses + 1 }
    else s

/-- The read after steps of its threads. -/
def reach (maxBytes : Nat) (es : List DownloadEvent) : Download :=
  run (step maxBytes) {} es

/-- `download_private_bytes` up to the start of its worker. -/
def openDownload (objectKey : String) (maxBytes timeoutSeconds : Int) : Except String Download :=
  if objectKey = "" then .error "AUDIO_OBJECT_KEY_INVALID"
  else if maxBytes ≤ 0 ∨ timeoutSeconds ≤ 0 then .error "AUDIO_SOURCE_READ_FAILED"
  else .ok {}

/-! ## What holds at any time -/

/-- The codes a read can end with. -/
def sourceErrorCodes : List String :=
  ["AUDIO_SOURCE_NOT_FOUND", "AUDIO_SOURCE_ACCESS_DENIED", "AUDIO_SOURCE_READ_FAILED",
    "AUDIO_FILE_TOO_LARGE", "AUDIO_SOURCE_READ_TIMEOUT"]

theorem safeSourceError_mem (message : List Char) : safeSourceError message ∈ sourceErrorCodes := by
  unfold safeSourceError
  split_ifs <;> simp [sourceErrorCodes]

/-- An outcome is all that was sent, or one of the codes. -/
def Outcome.Fits (maxBytes : Nat) (sent : List UInt8) : Outcome → Prop
  | .bytes data => data = sent ∧ data.length ≤ maxBytes
  | .failed code => code ∈ sourceErrorCodes

/-- The slot has the body that came in time, and only the caller who has gone
away takes it. -/
structure SlotInv (s : Download) : Prop where
  early : s.worker = .asking ∨ s.worker = .holding → s.passed = false
  behind : s.worker = .checking ∨ s.worker = .reading → s.passed = true
  slot : s.slotBody = true ↔ s.passed = true ∧ s.late = false ∧ s.held = true
  lateAbandoned : s.late = true → s.abandoned = true ∧ s.passed = true
  claimedAbandoned : s.claimed = true → s.abandoned = true ∧ s.slotBody = true
  incharge : s.abandoned = true → s.passed = true → s.held = true →
    s.claimed = true ∨ s.late = true

/-- What the worker has read. -/
structure BytesInv (maxBytes : Nat) (s : Download) : Prop where
  bounded : s.chunks.length ≤ maxBytes
  unread : s.worker = .asking ∨ s.worker = .holding ∨ s.worker = .checking →
    s.chunks = [] ∧ s.sent = []
  whole : s.worker = .reading → s.chunks = s.sent
  leaving : ∀ o, s.worker = .leaving o → o.Fits maxBytes s.sent
  ended : ∀ o, s.worker = .ended o → o.Fits maxBytes s.sent

/-- What a worker that was late has closed. -/
structure LateInv (s : Download) : Prop where
  unclosed : s.worker = .asking ∨ s.worker = .holding ∨ s.worker = .checking ∨ s.late = false →
    s.lateCloses = 0
  lateOnce : s.lateCloses ≤ 1
  lateClosed : s.worker = .reading → s.late = true → s.held = true → s.lateCloses = 1

/-- How often the `finally` has closed the body. -/
def finalCount (s : Download) : Nat :=
  match s.worker with
  | .ended _ => if s.held = true then 1 else 0
  | _ => 0

/-- What the caller has done with the body, and what it has returned. -/
structure CallerInv (s : Download) : Prop where
  there : s.caller = .waiting ∨ s.caller = .timedOut →
    s.abandoned = false ∧ s.claimed = false ∧ s.closer = .absent
  gone : s.caller = .abandoning → s.abandoned = true ∧ s.closer = .absent
  returned : ∀ o, s.caller = .returned o →
    s.abandoned = true ∧ o = .failed "AUDIO_SOURCE_READ_TIMEOUT" ∧
      (s.claimed = true → s.closer ≠ .absent) ∨
    s.abandoned = false ∧ s.claimed = false ∧ s.worker = .ended o
  closing : s.closer ≠ .absent → s.claimed = true
  unclosed : s.closer ≠ .ended → s.closerCloses = 0
  closed : s.closer = .ended → s.closerCloses = 1

variable {maxBytes : Nat} {s : Download}

/-! ## What a step does -/

/-- The steps of the threads, each with where its thread is. -/
inductive Moves (maxBytes : Nat) (s : Download) : Download → Prop
  | idle : Moves maxBytes s s
  | refuses (message : List Char) (h : s.worker = .asking) :
    Moves maxBytes s { s with worker := .leaving (.failed (safeSourceError message)) }
  | responds (body : Bool) (h : s.worker = .asking) :
    Moves maxBytes s { s with worker := .holding, held := body }
  | publishes (h : s.worker = .holding) (hthere : s.abandoned = false) :
    Moves maxBytes s { s with
      worker := .checking
      passed := true
      late := s.abandoned
      slotBody := s.held }
  | publishesLate (h : s.worker = .holding) (hgone : s.abandoned = true) :
    Moves maxBytes s { s with
      worker := .checking
      passed := true
      late := s.abandoned }
  | closesLate (h : s.worker = .checking) (hlate : s.late = true) (hheld : s.held = true) :
    Moves maxBytes s { s with worker := .reading, lateCloses := s.lateCloses + 1 }
  | goesOn (h : s.worker = .checking) (hnot : ¬(s.late = true ∧ s.held = true)) :
    Moves maxBytes s { s with worker := .reading }
  | tooLarge (chunk : List UInt8) (h : s.worker = .reading) :
    Moves maxBytes s { s with
      sent := s.sent ++ chunk
      worker := .leaving (.failed "AUDIO_FILE_TOO_LARGE") }
  | takes (chunk : List UInt8) (h : s.worker = .reading)
    (hlength : (s.chunks ++ chunk).length ≤ maxBytes) :
    Moves maxBytes s { s with
      sent := s.sent ++ chunk
      chunks := s.chunks ++ chunk }
  | takesLast (chunk : List UInt8) (h : s.worker = .reading)
    (hlength : (s.chunks ++ chunk).length ≤ maxBytes) :
    Moves maxBytes s { s with
      sent := s.sent ++ chunk
      chunks := s.chunks ++ chunk
      worker := .leaving (.failed "AUDIO_SOURCE_READ_TIMEOUT") }
  | finishes (h : s.worker = .reading) :
    Moves maxBytes s { s with worker := .leaving (.bytes s.chunks) }
  | breaks (message : List Char) (h : s.worker = .reading) :
    Moves maxBytes s { s with worker := .leaving (.failed (safeSourceError message)) }
  | releases (outcome : Outcome) (h : s.worker = .leaving outcome) (hheld : s.held = true) :
    Moves maxBytes s { s with worker := .ended outcome, finalCloses := s.finalCloses + 1 }
  | leaves (outcome : Outcome) (h : s.worker = .leaving outcome) (hheld : s.held = false) :
    Moves maxBytes s { s with worker := .ended outcome }
  | expires (h : s.caller = .waiting) : Moves maxBytes s { s with caller := .timedOut }
  | abandons (h : s.caller = .timedOut) : Moves maxBytes s { s with
      caller := .abandoning
      abandoned := true
      claimed := s.slotBody }
  | handsOver (h : s.caller = .abandoning) (hclaimed : s.claimed = true) : Moves maxBytes s { s with
      caller := .returned (.failed "AUDIO_SOURCE_READ_TIMEOUT")
      closer := .started }
  | returns (h : s.caller = .abandoning) (hclaimed : s.claimed = false) : Moves maxBytes s { s with
      caller := .returned (.failed "AUDIO_SOURCE_READ_TIMEOUT") }
  | collects (outcome : Outcome) (h : s.caller = .waiting) (hended : s.worker = .ended outcome) :
    Moves maxBytes s { s with caller := .returned outcome }
  | closes (h : s.closer = .started) : Moves maxBytes s { s with
      closer := .ended
      closerCloses := s.closerCloses + 1 }

theorem takeChunk_moves (h : s.worker = .reading) (chunk : List UInt8) (expired : Bool) :
    Moves maxBytes s (takeChunk maxBytes s chunk expired) := by
  unfold takeChunk
  by_cases hlarge : maxBytes < s.chunks.length + chunk.length
  · rw [if_pos hlarge]
    exact .tooLarge chunk h
  · have hlength : (s.chunks ++ chunk).length ≤ maxBytes := by
      rw [List.length_append]
      omega
    rw [if_neg hlarge]
    cases expired with
    | true => exact .takesLast chunk h hlength
    | false =>
      have htakes := @Moves.takes maxBytes s chunk h hlength
      rw [← h]
      exact htakes

/-- What is done where a thread is, and not elsewhere. -/
theorem moves_if {p : Prop} [Decidable p] {s' : Download} (h : p → Moves maxBytes s s') :
    Moves maxBytes s (if p then s' else s) := by
  by_cases hp : p
  · rw [if_pos hp]
    exact h hp
  · rw [if_neg hp]
    exact .idle

theorem step_moves (e : DownloadEvent) : Moves maxBytes s (step maxBytes s e) := by
  cases e with
  | refuses message => exact moves_if fun h => .refuses message h
  | responds body => exact moves_if fun h => .responds body h
  | publishes =>
    refine moves_if fun h => ?_
    by_cases hgone : s.abandoned = true
    · rw [if_pos hgone]
      exact .publishesLate h hgone
    · rw [if_neg hgone]
      exact .publishes h (Bool.eq_false_iff.2 hgone)
  | closesLate =>
    refine moves_if fun h => ?_
    by_cases hlate : s.late = true ∧ s.held = true
    · rw [if_pos hlate]
      exact .closesLate h hlate.1 hlate.2
    · rw [if_neg hlate]
      exact .goesOn h hlate
  | yields chunk expired => exact moves_if fun h => takeChunk_moves h.1 chunk expired
  | finishes => exact moves_if fun h => .finishes h.1
  | breaks message => exact moves_if fun h => .breaks message h
  | releases =>
    rw [step]
    split
    · next outcome h =>
      by_cases hheld : s.held = true
      · rw [if_pos hheld]
        exact .releases outcome h hheld
      · rw [if_neg hheld]
        exact .leaves outcome h (Bool.eq_false_iff.2 hheld)
    · exact .idle
  | expires =>
    rw [step]
    split
    · exact .idle
    · next h _ => exact .expires h
    · exact .idle
  | abandons => exact moves_if fun h => .abandons h
  | handsOver =>
    refine moves_if fun h => ?_
    by_cases hclaimed : s.claimed = true
    · rw [if_pos hclaimed]
      exact .handsOver h hclaimed
    · rw [if_neg hclaimed]
      exact .returns h (Bool.eq_false_iff.2 hclaimed)
  | collects =>
    rw [step]
    split
    · next outcome h hended => exact .collects outcome h hended
    · exact .idle
  | closes => exact moves_if fun h => .closes h

/-! ## One step keeps it -/

theorem SlotInv.moves {s' : Download} (h : SlotInv s) (hc : CallerInv s)
    (hasking : s.worker = .asking → s.held = false) (hmoves : Moves maxBytes s s') : SlotInv s' := by
  obtain ⟨hearly, hbehind, hslot, hlate, hclaimed, hcharge⟩ := h
  cases hmoves with
  | abandons hcaller =>
    obtain ⟨habandoned, _, _⟩ := hc.there (Or.inr hcaller)
    constructor <;> first | assumption | grind
  | _ => constructor <;> first | assumption | grind

theorem CallerInv.moves {s' : Download} (h : CallerInv s) (hmoves : Moves maxBytes s s') :
    CallerInv s' := by
  obtain ⟨hthere, hgone, hreturned, hclosing, hunclosed, hclosed⟩ := h
  cases hmoves with
  | _ => constructor <;> first | assumption | grind

theorem LateInv.moves {s' : Download} (h : LateInv s) (hmoves : Moves maxBytes s s') :
    LateInv s' := by
  obtain ⟨hunclosed, honce, hlate⟩ := h
  cases hmoves with
  | _ => constructor <;> first | assumption | grind

theorem finalCount_moves {s' : Download} (h : s.finalCloses = finalCount s)
    (hmoves : Moves maxBytes s s') : s'.finalCloses = finalCount s' := by
  unfold finalCount at h ⊢
  cases hmoves with
  | releases outcome hw hheld =>
    rw [hw] at h
    show s.finalCloses + 1 = if s.held = true then 1 else 0
    rw [h, if_pos hheld]
  | leaves outcome hw hheld =>
    rw [hw] at h
    show s.finalCloses = if s.held = true then 1 else 0
    rw [h, hheld]
    rfl
  | refuses _ hw | responds _ hw | publishes hw _ | publishesLate hw _ | closesLate hw _ _
  | goesOn hw _ | tooLarge _ hw | takesLast _ hw _ | finishes hw | breaks _ hw =>
    rw [hw] at h
    exact h
  | _ => exact h

/-- The worker leaves the loop with an outcome that fits. -/
theorem BytesInv.leaves {o : Outcome} {chunks sent : List UInt8} (hbounded : chunks.length ≤ maxBytes)
    (hfits : o.Fits maxBytes sent) :
    BytesInv maxBytes { s with worker := .leaving o, chunks := chunks, sent := sent } := by
  refine ⟨hbounded, ?_, ?_, ?_, ?_⟩
  · rintro (h | h | h) <;> cases h
  · intro h
    cases h
  · intro o' ho'
    cases ho'
    exact hfits
  · intro o' ho'
    cases ho'

/-- The worker ends with the outcome it has left the loop with. -/
theorem BytesInv.ends {o : Outcome} {closes : Nat} (h : BytesInv maxBytes s)
    (hleaving : s.worker = .leaving o) :
    BytesInv maxBytes { s with worker := .ended o, finalCloses := closes } := by
  refine ⟨h.bounded, ?_, ?_, ?_, ?_⟩
  · rintro (h | h | h) <;> cases h
  · intro h
    cases h
  · intro o' ho'
    cases ho'
  · intro o' ho'
    cases ho'
    exact h.leaving o hleaving

/-- Nothing is kept of an object before the loop. -/
theorem BytesInv.before {w : WorkerAt} {s' : Download} (h : BytesInv maxBytes s)
    (hbefore : s.worker = .asking ∨ s.worker = .holding ∨ s.worker = .checking)
    (hw : w = .holding ∨ w = .checking ∨ w = .reading) (hworker : s'.worker = w)
    (hchunks : s'.chunks = s.chunks) (hsent : s'.sent = s.sent) : BytesInv maxBytes s' := by
  obtain ⟨hnone, hnothing⟩ := h.unread hbefore
  rw [hnone] at hchunks
  rw [hnothing] at hsent
  have hinside : (∀ o, s'.worker ≠ .leaving o) ∧ ∀ o, s'.worker ≠ .ended o := by
    rw [hworker]
    rcases hw with rfl | rfl | rfl <;> exact ⟨fun o h => (by cases h), fun o h => (by cases h)⟩
  refine ⟨?_, fun _ => ⟨hchunks, hsent⟩, fun _ => hchunks.trans hsent.symm,
    fun o ho => absurd ho (hinside.1 o), fun o ho => absurd ho (hinside.2 o)⟩
  rw [hchunks]
  exact Nat.zero_le _

theorem BytesInv.moves {s' : Download} (h : BytesInv maxBytes s) (hmoves : Moves maxBytes s s') :
    BytesInv maxBytes s' := by
  cases hmoves with
  | refuses message _ => exact leaves h.bounded (safeSourceError_mem message)
  | responds body hw => exact h.before (Or.inl hw) (Or.inl rfl) rfl rfl rfl
  | publishes hw _ => exact h.before (Or.inr (Or.inl hw)) (Or.inr (Or.inl rfl)) rfl rfl rfl
  | publishesLate hw _ => exact h.before (Or.inr (Or.inl hw)) (Or.inr (Or.inl rfl)) rfl rfl rfl
  | closesLate hw _ _ => exact h.before (Or.inr (Or.inr hw)) (Or.inr (Or.inr rfl)) rfl rfl rfl
  | goesOn hw _ => exact h.before (Or.inr (Or.inr hw)) (Or.inr (Or.inr rfl)) rfl rfl rfl
  | tooLarge chunk _ => exact leaves h.bounded (by simp [Outcome.Fits, sourceErrorCodes])
  | takes chunk hw hlength =>
    refine ⟨hlength, ?_, fun _ => congrArg (· ++ chunk) (h.whole hw), ?_, ?_⟩
    · intro hbefore
      rw [hw] at hbefore
      rcases hbefore with hb | hb | hb <;> cases hb
    · intro o ho
      rw [hw] at ho
      cases ho
    · intro o ho
      rw [hw] at ho
      cases ho
  | takesLast chunk _ hlength => exact leaves hlength (by simp [Outcome.Fits, sourceErrorCodes])
  | finishes hw => exact leaves h.bounded ⟨h.whole hw, h.bounded⟩
  | breaks message _ => exact leaves h.bounded (safeSourceError_mem message)
  | releases outcome hw _ => exact h.ends hw
  | leaves outcome hw _ => exact h.ends hw
  | _ => exact ⟨h.bounded, h.unread, h.whole, h.leaving, h.ended⟩

/-- All of it, at any time. -/
structure ReadInv (maxBytes : Nat) (s : Download) : Prop where
  slot : SlotInv s
  caller : CallerInv s
  bytes : BytesInv maxBytes s
  late : LateInv s
  final : s.finalCloses = finalCount s
  asking : s.worker = .asking → s.held = false

theorem ReadInv.step (h : ReadInv maxBytes s) (e : DownloadEvent) :
    ReadInv maxBytes (SourceDownload.step maxBytes s e) := by
  have hmoves : Moves maxBytes s (SourceDownload.step maxBytes s e) := step_moves e
  generalize SourceDownload.step maxBytes s e = s' at hmoves ⊢
  refine ⟨h.slot.moves h.caller h.asking hmoves, h.caller.moves hmoves, h.bytes.moves hmoves,
    h.late.moves hmoves, finalCount_moves h.final hmoves, ?_⟩
  have hasking := h.asking
  cases hmoves with
  | _ => grind

theorem readInv (maxBytes : Nat) (es : List DownloadEvent) : ReadInv maxBytes (reach maxBytes es) := by
  refine run_inv (fun _ e h => h.step e) es _ ⟨?_, ?_, ?_, ?_, rfl, fun _ => rfl⟩
  · constructor <;> first | assumption | grind
  · constructor <;> first | assumption | grind
  · constructor <;> first | assumption | grind
  · constructor <;> first | assumption | grind

/-! ## No body is lost -/

/-- The body is released, and the caller is told what was read. -/
structure BodyReleased (maxBytes : Nat) (s : Download) : Prop where
  /-- Of a body that was given up, one of the two is in charge. -/
  incharge : s.abandoned = true → s.passed = true → s.held = true →
    s.claimed = true ∧ s.late = false ∨ s.claimed = false ∧ s.late = true
  /-- What the caller took has its thread when the caller is gone. -/
  handedOver : ∀ o, s.caller = .returned o → s.claimed = true → s.closer ≠ .absent
  /-- A worker that was late has closed the body before it reads. -/
  closedLate : s.worker = .reading → s.late = true → s.held = true → s.lateCloses = 1
  closedAtEnd : ∀ o, s.worker = .ended o → s.held = true → s.finalCloses = 1
  closedTwice : s.lateCloses + s.closerCloses + s.finalCloses ≤ 2
  bounded : s.chunks.length ≤ maxBytes
  /-- Bytes are all that was sent, and the body is closed by then. -/
  bytes : ∀ data, s.caller = .returned (.bytes data) →
    data = s.sent ∧ data.length ≤ maxBytes ∧ (s.held = true → s.finalCloses = 1)
  code : ∀ code, s.caller = .returned (.failed code) → code ∈ sourceErrorCodes

theorem ReadInv.closedAtEnd (h : ReadInv maxBytes s) {o : Outcome} (hended : s.worker = .ended o)
    (hheld : s.held = true) : s.finalCloses = 1 := by
  rw [h.final]
  unfold finalCount
  rw [hended]
  exact if_pos hheld

theorem ReadInv.finalOnce (h : ReadInv maxBytes s) : s.finalCloses ≤ 1 := by
  rw [h.final]
  unfold finalCount
  split
  · split_ifs <;> omega
  · omega

theorem ReadInv.closedTwice (h : ReadInv maxBytes s) :
    s.lateCloses + s.closerCloses + s.finalCloses ≤ 2 := by
  have hfinal := h.finalOnce
  have honce := h.late.lateOnce
  by_cases hlate : s.late = true
  · -- the caller took nothing, so there is no third thread
    have hclaimed : s.claimed ≠ true := fun hclaimed => by
      have hslot := h.slot.slot.1 (h.slot.claimedAbandoned hclaimed).2
      rw [hlate] at hslot
      exact absurd hslot.2.1 (by decide)
    have hcloser : s.closer ≠ .ended := fun hended =>
      hclaimed (h.caller.closing (by rw [hended]; decide))
    have hnone := h.caller.unclosed hcloser
    omega
  · have hlate' := h.late.unclosed (Or.inr (Or.inr (Or.inr (Bool.eq_false_iff.2 hlate))))
    by_cases hended : s.closer = .ended
    · have hclosed := h.caller.closed hended
      omega
    · have hnone := h.caller.unclosed hended
      omega

theorem ReadInv.released (h : ReadInv maxBytes s) : BodyReleased maxBytes s where
  incharge habandoned hpassed hheld := by
    rcases h.slot.incharge habandoned hpassed hheld with hclaimed | hlate
    · exact Or.inl ⟨hclaimed, (h.slot.slot.1 (h.slot.claimedAbandoned hclaimed).2).2.1⟩
    · refine Or.inr ⟨Bool.eq_false_iff.2 fun hclaimed => ?_, hlate⟩
      have hslot := h.slot.slot.1 (h.slot.claimedAbandoned hclaimed).2
      rw [hlate] at hslot
      exact absurd hslot.2.1 (by decide)
  handedOver o ho hclaimed := by
    rcases h.caller.returned o ho with ⟨_, _, hstarted⟩ | ⟨_, hnot, _⟩
    · exact hstarted hclaimed
    · rw [hclaimed] at hnot
      cases hnot
  closedLate := h.late.lateClosed
  closedAtEnd _ hended hheld := h.closedAtEnd hended hheld
  closedTwice := h.closedTwice
  bounded := h.bytes.bounded
  bytes data hdata := by
    rcases h.caller.returned _ hdata with ⟨_, hcode, _⟩ | ⟨_, _, hended⟩
    · cases hcode
    · obtain ⟨hsent, hlength⟩ := h.bytes.ended _ hended
      exact ⟨hsent, hlength, h.closedAtEnd hended⟩
  code code hcode := by
    rcases h.caller.returned _ hcode with ⟨_, heq, _⟩ | ⟨_, _, hended⟩
    · cases heq
      simp [sourceErrorCodes]
    · exact h.bytes.ended _ hended

/-! ## The caller does not wait -/

/-- The caller is behind the lock, or has returned. -/
def LeftWaiting (s : Download) : Prop :=
  s.caller = .abandoning ∨ s.caller = .returned (.failed "AUDIO_SOURCE_READ_TIMEOUT")

theorem returned_stays {o : Outcome} (h : s.caller = .returned o) (e : DownloadEvent) :
    (SourceDownload.step maxBytes s e).caller = .returned o := by
  have hmoves : Moves maxBytes s (SourceDownload.step maxBytes s e) := step_moves e
  generalize SourceDownload.step maxBytes s e = s' at hmoves ⊢
  cases hmoves with
  | _ => grind

theorem LeftWaiting.step (h : LeftWaiting s) (e : DownloadEvent) :
    LeftWaiting (SourceDownload.step maxBytes s e) := by
  rcases h with habandoning | hreturned
  · have hmoves : Moves maxBytes s (SourceDownload.step maxBytes s e) := step_moves e
    generalize SourceDownload.step maxBytes s e = s' at hmoves ⊢
    unfold LeftWaiting
    cases hmoves with
    | _ => grind
  · exact Or.inr (returned_stays hreturned e)

/-- A caller that has timed out returns by its own two steps. -/
theorem returns_in_time (h : s.caller = .timedOut) (between after : List DownloadEvent) :
    (run (SourceDownload.step maxBytes) s (.abandons :: (between ++ .handsOver :: after))).caller =
      .returned (.failed "AUDIO_SOURCE_READ_TIMEOUT") := by
  have habandons : LeftWaiting (SourceDownload.step maxBytes s .abandons) := by
    unfold SourceDownload.step
    rw [if_pos h]
    exact Or.inl rfl
  have hbetween := run_inv (I := LeftWaiting)
    (fun _ e hs => @LeftWaiting.step maxBytes _ hs e) between _ habandons
  rw [run_cons, run_append, run_cons]
  refine run_inv
    (I := fun t : Download => t.caller = .returned (.failed "AUDIO_SOURCE_READ_TIMEOUT"))
    (fun _ e hs => @returned_stays maxBytes _ _ hs e) after _ ?_
  generalize run (SourceDownload.step maxBytes) (SourceDownload.step maxBytes s .abandons) between = t
    at hbetween
  rcases hbetween with habandoning | hreturned
  · unfold SourceDownload.step
    rw [if_pos habandoning]
  · exact returned_stays hreturned .handsOver

/-- **The read releases its body.** In any order of the steps of the caller, the
worker and the closing thread, and whatever the store does, the body is released
and the caller is told what was read; and a caller that has timed out returns
whatever the others do. -/
theorem source_read_released (maxBytes : Nat) (es : List DownloadEvent) :
    BodyReleased maxBytes (reach maxBytes es) ∧
    ((reach maxBytes es).caller = .timedOut → ∀ between after : List DownloadEvent,
      (reach maxBytes (es ++ .abandons :: (between ++ .handsOver :: after))).caller =
        .returned (.failed "AUDIO_SOURCE_READ_TIMEOUT")) := by
  refine ⟨(readInv maxBytes es).released, fun h between after => ?_⟩
  unfold reach
  rw [run_append]
  exact returns_in_time h between after

/-- The caller goes away between the answer and the lock: the worker closes. -/
example : (reach 10 [.responds true, .expires, .abandons, .publishes, .closesLate, .breaks [],
    .releases, .handsOver]).lateCloses = 1 := by
  decide

end SourceDownload

end AgentRuntime
