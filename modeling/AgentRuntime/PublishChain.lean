import AgentRuntime.FencedWriter
import AgentRuntime.PublishDocument
import Mathlib.Data.List.Basic

/-!
# One chain of publications

Two workers of a run may both be in the middle of the node, one of them
after it has lost its lease. What keeps their attempts apart is the fence:
an attempt is begun and settled only under a lease that still lives, and
between the search for an earlier attempt and the beginning of a new one
nobody else can have written (`KnowsWorker`). So of the attempts of one
publication all but the last have failed (`Guarded`), and a request that is
sent has only failed attempts before it.

`KeepsRun` is what all other statements do to the rows of a run: nothing,
except that a row which is running may become unknown.
-/

namespace AgentRuntime

open Keyed Fencing Interleave Runs ToolCallAuditService

/-! ## The table -/

/-- What identifies an attempt; no statement changes it. -/
structure AttemptId where
  runId : String
  key : String
  idempotencyKey : String
  requestDigest : String
  toolAttempt : Nat

def AgentToolCall.attemptId (call : AgentToolCall) : AttemptId :=
  ⟨call.runId, call.logicalOperationKey, call.idempotencyKey, call.requestDigest,
    call.toolAttempt⟩

/-- Two attempts of one logical operation. -/
def SameOperation (a b : AgentToolCall) : Prop :=
  a.AttemptOf b.runId b.logicalOperationKey

/-- The attempts of every operation agree and are numbered, and all but the
last of them have failed. -/
structure Guarded (calls : List AgentToolCall) : Prop where
  agree : ∀ a ∈ calls, ∀ b ∈ calls, SameOperation a b →
    a.idempotencyKey = b.idempotencyKey ∧ a.requestDigest = b.requestDigest
  numbered : ∀ runId key, (chain calls runId key).map (·.toolAttempt)
    = List.range' 1 (chain calls runId key).length
  failed : calls.Pairwise (fun a b => SameOperation a b → a.status = .failed)

/-- Every attempt of the operation has failed. -/
def AllFailed (calls : List AgentToolCall) (runId key : String) : Prop :=
  ∀ call ∈ calls, call.AttemptOf runId key → call.status = .failed

/-- The row is the last attempt of its operation, and of the run. -/
def LastAttempt (calls : List AgentToolCall) (runId : String) (record : Nat) : Prop :=
  ∃ call, calls[record]? = some call ∧ call.runId = runId ∧
    ∀ j later, record < j → calls[j]? = some later → ¬ SameOperation later call

/-- Rows keep their place and identity. -/
def InPlace (calls calls' : List AgentToolCall) : Prop :=
  ∀ (j : Nat) (row : AgentToolCall), calls[j]? = some row →
    ∃ row', calls'[j]? = some row' ∧ row'.attemptId = row.attemptId

/-- The rows of the run are those that were there, and a failed one is still
failed. -/
structure KeepsRun (q : String) (calls calls' : List AgentToolCall) : Prop where
  kept : InPlace calls calls'
  old : ∀ (j : Nat) (row' : AgentToolCall), calls'[j]? = some row' → row'.runId = q →
    ∃ row, calls[j]? = some row ∧ row'.attemptId = row.attemptId ∧
      (row.status = .failed → row'.status = .failed)

variable {calls calls' : List AgentToolCall} {q runId key : String} {record : Nat}

theorem SameOperation.of_ids {a b a' b' : AgentToolCall} (ha : a'.attemptId = a.attemptId)
    (hb : b'.attemptId = b.attemptId) (h : SameOperation a' b') : SameOperation a b := by
  simp only [AgentToolCall.attemptId, AttemptId.mk.injEq] at ha hb
  unfold SameOperation AgentToolCall.AttemptOf at *
  rw [← ha.1, ← ha.2.1, ← hb.1, ← hb.2.1]
  exact h

theorem InPlace.refl (calls : List AgentToolCall) : InPlace calls calls :=
  fun _ row h => ⟨row, h, rfl⟩

theorem KeepsRun.refl (q : String) (calls : List AgentToolCall) : KeepsRun q calls calls :=
  ⟨InPlace.refl calls, fun _ row h _ => ⟨row, h, rfl, id⟩⟩

theorem KeepsRun.allFailed (h : KeepsRun q calls calls') (hall : AllFailed calls q key) :
    AllFailed calls' q key := by
  intro call hmem hof
  obtain ⟨j, hj⟩ := List.mem_iff_getElem?.mp hmem
  obtain ⟨row, hrow, hid, hfailed⟩ := h.old j call hj hof.1
  simp only [AgentToolCall.attemptId, AttemptId.mk.injEq] at hid
  refine hfailed (hall row (List.mem_of_getElem? hrow) ⟨?_, ?_⟩)
  · rw [← hid.1]
    exact hof.1
  · rw [← hid.2.1]
    exact hof.2

theorem KeepsRun.lastAttempt (h : KeepsRun q calls calls') (hlast : LastAttempt calls q record) :
    LastAttempt calls' q record := by
  obtain ⟨call, hcall, hrun, hlater⟩ := hlast
  obtain ⟨call', hcall', hid⟩ := h.kept record call hcall
  have hrun' : call'.runId = q := (congrArg AttemptId.runId hid).trans hrun
  refine ⟨call', hcall', hrun', fun j later hj hget hsame => ?_⟩
  obtain ⟨row, hrow, hid', _⟩ := h.old j later hget (hsame.1.trans hrun')
  exact hlater j row hj hrow (hsame.of_ids hid' hid)

/-! ### Statements on the table -/

theorem kept_append (calls : List AgentToolCall) (row : AgentToolCall) :
    InPlace calls (calls ++ [row]) := by
  intro j old h
  obtain ⟨hlt, _⟩ := List.getElem?_eq_some_iff.mp h
  exact ⟨old, by rw [List.getElem?_append_left hlt]; exact h, rfl⟩

theorem keepsRun_append {row : AgentToolCall} (h : row.runId ≠ q) :
    KeepsRun q calls (calls ++ [row]) := by
  refine ⟨kept_append calls row, fun j row' hget hrun => ?_⟩
  rcases Nat.lt_or_ge j calls.length with hj | hj
  · rw [List.getElem?_append_left hj] at hget
    exact ⟨row', hget, rfl, id⟩
  · rw [List.getElem?_append_right hj] at hget
    rw [List.mem_singleton.mp (List.mem_of_getElem? hget)] at hrun
    exact absurd hrun h

/-- A row after a row is settled. -/
theorem getElem?_settle (calls : List AgentToolCall) (record j : Nat) (outcome : ToolCallOutcome) :
    (calls.modify record (fun call => call.settle outcome))[j]?
      = if record = j then (calls[j]?).map (fun call => call.settle outcome) else calls[j]? := by
  rw [List.getElem?_modify]
  split <;> simp_all

theorem kept_settle (calls : List AgentToolCall) (record : Nat) (outcome : ToolCallOutcome) :
    InPlace calls (calls.modify record (fun call => call.settle outcome)) := by
  intro j row h
  rw [getElem?_settle, h]
  split
  · exact ⟨_, rfl, rfl⟩
  · exact ⟨_, rfl, rfl⟩

theorem keepsRun_settle {call : AgentToolCall} (hcall : calls[record]? = some call)
    (h : call.runId ≠ q) (outcome : ToolCallOutcome) :
    KeepsRun q calls (calls.modify record (fun call => call.settle outcome)) := by
  refine ⟨kept_settle calls record outcome, fun j row' hget hrun => ?_⟩
  rw [getElem?_settle] at hget
  split at hget
  next heq =>
    subst heq
    rw [hcall] at hget
    cases hget
    exact absurd hrun h
  · exact ⟨row', hget, rfl, id⟩

theorem markStale_attemptId (current : Time) (call : AgentToolCall) :
    (ReconciliationService.markStale current call).attemptId = call.attemptId := by
  unfold ReconciliationService.markStale
  split <;> rfl

theorem markStale_failed {current : Time} {call : AgentToolCall} (h : call.status = .failed) :
    (ReconciliationService.markStale current call).status = .failed := by
  unfold ReconciliationService.markStale
  rw [if_neg fun hstale => ?_]
  · exact h
  · rw [h] at hstale
    cases hstale.1

/-- The reconciler keeps the rows of every run. -/
theorem keepsRun_markStale (q : String) (calls : List AgentToolCall) (current : Time) :
    KeepsRun q calls (ReconciliationService.markStaleToolCallsUnknown calls current) := by
  constructor
  · intro j row h
    refine ⟨ReconciliationService.markStale current row, ?_, markStale_attemptId current row⟩
    simp [ReconciliationService.markStaleToolCallsUnknown, h]
  · intro j row' hget _
    simp only [ReconciliationService.markStaleToolCallsUnknown, List.getElem?_map,
      Option.map_eq_some_iff] at hget
    obtain ⟨row, hrow, rfl⟩ := hget
    exact ⟨row, hrow, markStale_attemptId current row, markStale_failed⟩

/-! ### What keeps the chains -/

theorem mem_chain {call : AgentToolCall} :
    call ∈ chain calls runId key ↔ call ∈ calls ∧ call.AttemptOf runId key := by
  simp [chain]

/-- The chain of an operation, by its identities. -/
theorem map_chain (calls : List AgentToolCall) (runId key : String) :
    (chain calls runId key).map AgentToolCall.attemptId
      = (calls.map AgentToolCall.attemptId).filter
          (fun id => decide (id.runId = runId ∧ id.key = key)) := by
  unfold chain
  rw [List.filter_map]
  rfl

theorem numbered_of_ids (h : calls'.map AgentToolCall.attemptId = calls.map AgentToolCall.attemptId)
    (hnumbered : (chain calls runId key).map (·.toolAttempt)
      = List.range' 1 (chain calls runId key).length) :
    (chain calls' runId key).map (·.toolAttempt)
      = List.range' 1 (chain calls' runId key).length := by
  have hids : (chain calls' runId key).map AgentToolCall.attemptId
      = (chain calls runId key).map AgentToolCall.attemptId := by
    rw [map_chain, map_chain, h]
  have hattempts : (chain calls' runId key).map (·.toolAttempt)
      = (chain calls runId key).map (·.toolAttempt) := by
    have hmap := congrArg (List.map AttemptId.toolAttempt) hids
    rw [List.map_map, List.map_map] at hmap
    exact hmap
  have hlength : (chain calls' runId key).length = (chain calls runId key).length := by
    simpa only [List.length_map] using congrArg List.length hids
  rw [hattempts, hlength]
  exact hnumbered

/-- A statement that only settles rows keeps what the attempts agree on and
how they are numbered. -/
theorem Guarded.of_ids (h : Guarded calls)
    (hids : calls'.map AgentToolCall.attemptId = calls.map AgentToolCall.attemptId)
    (hfailed : calls'.Pairwise (fun a b => SameOperation a b → a.status = .failed)) :
    Guarded calls' where
  agree a ha b hb hsame := by
    have hback : ∀ c ∈ calls', ∃ c₀ ∈ calls, c.attemptId = c₀.attemptId := by
      intro c hc
      have hmem : c.attemptId ∈ calls.map AgentToolCall.attemptId :=
        hids ▸ List.mem_map_of_mem hc
      obtain ⟨c₀, hc₀, heq⟩ := List.mem_map.mp hmem
      exact ⟨c₀, hc₀, heq.symm⟩
    obtain ⟨a₀, ha₀, hida⟩ := hback a ha
    obtain ⟨b₀, hb₀, hidb⟩ := hback b hb
    have hold := h.agree a₀ ha₀ b₀ hb₀ (hsame.of_ids hida hidb)
    simp only [AgentToolCall.attemptId, AttemptId.mk.injEq] at hida hidb
    rw [hida.2.2.1, hida.2.2.2.1, hidb.2.2.1, hidb.2.2.2.1]
    exact hold
  numbered runId key := numbered_of_ids hids (h.numbered runId key)
  failed := hfailed

/-- The last attempt of an operation may be settled in any way. -/
theorem Guarded.settle (h : Guarded calls) (hlast : LastAttempt calls q record)
    (outcome : ToolCallOutcome) :
    Guarded (calls.modify record (fun call => call.settle outcome)) := by
  obtain ⟨call, hcall, _, hlater⟩ := hlast
  refine h.of_ids ?_ (List.pairwise_iff_getElem.mpr fun i j hi hj hlt hsame => ?_)
  · apply List.ext_getElem?
    intro j
    rw [List.getElem?_map, List.getElem?_map, getElem?_settle]
    split
    · cases calls[j]? <;> rfl
    · rfl
  · rw [List.length_modify] at hi hj
    rw [List.getElem_modify, List.getElem_modify] at hsame
    rw [List.getElem_modify]
    by_cases heq : record = i
    · subst heq
      -- nothing of the operation comes after the row that is settled
      rw [if_pos rfl, if_neg (Nat.ne_of_lt hlt)] at hsame
      have hrow : calls[record] = call := (List.getElem?_eq_some_iff.mp hcall).2
      have hsame' : SameOperation calls[record] calls[j] := hsame
      rw [hrow] at hsame'
      exact absurd ⟨hsame'.1.symm, hsame'.2.symm⟩
        (hlater j calls[j] hlt (List.getElem?_eq_getElem hj))
    · rw [if_neg heq]
      rw [if_neg heq] at hsame
      refine List.pairwise_iff_getElem.mp h.failed i j hi hj hlt ?_
      split at hsame
      · exact hsame
      · exact hsame

theorem Guarded.markStale (h : Guarded calls) (current : Time) :
    Guarded (ReconciliationService.markStaleToolCallsUnknown calls current) := by
  refine h.of_ids ?_ ?_
  · unfold ReconciliationService.markStaleToolCallsUnknown
    rw [List.map_map]
    exact List.map_congr_left fun call _ => markStale_attemptId current call
  · refine List.pairwise_map.mpr (h.failed.imp fun {a b} hab hsame => ?_)
    exact markStale_failed
      (hab (hsame.of_ids (markStale_attemptId current a) (markStale_attemptId current b)))

theorem chain_append (calls : List AgentToolCall) (row : AgentToolCall) (runId key : String) :
    chain (calls ++ [row]) runId key
      = chain calls runId key ++ if row.AttemptOf runId key then [row] else [] := by
  unfold chain
  rw [List.filter_append]
  by_cases h : row.AttemptOf runId key <;> simp [h]

/-- A new attempt after failed ones that agree with it. -/
theorem Guarded.append (h : Guarded calls) {row : AgentToolCall}
    (hall : AllFailed calls row.runId row.logicalOperationKey)
    (hagree : ∀ call ∈ chain calls row.runId row.logicalOperationKey,
      call.idempotencyKey = row.idempotencyKey ∧ call.requestDigest = row.requestDigest)
    (hattempt : row.toolAttempt
      = (chain calls row.runId row.logicalOperationKey).length + 1) :
    Guarded (calls ++ [row]) where
  agree a ha b hb hsame := by
    rcases List.mem_append.mp ha with ha | ha <;> rcases List.mem_append.mp hb with hb | hb
    · exact h.agree a ha b hb hsame
    · rw [List.mem_singleton.mp hb] at hsame ⊢
      exact hagree a (mem_chain.mpr ⟨ha, hsame⟩)
    · rw [List.mem_singleton.mp ha] at hsame ⊢
      have hab := hagree b (mem_chain.mpr ⟨hb, hsame.1.symm, hsame.2.symm⟩)
      exact ⟨hab.1.symm, hab.2.symm⟩
    · rw [List.mem_singleton.mp ha, List.mem_singleton.mp hb]
      exact ⟨rfl, rfl⟩
  numbered runId key := by
    rw [chain_append]
    by_cases hof : row.AttemptOf runId key
    · obtain ⟨rfl, rfl⟩ := hof
      rw [if_pos ⟨rfl, rfl⟩, List.map_append, List.length_append, h.numbered]
      simp [List.range'_1_concat, hattempt, Nat.add_comm]
    · rw [if_neg hof, List.append_nil]
      exact h.numbered runId key
  failed := by
    refine List.pairwise_append.mpr ⟨h.failed, List.pairwise_singleton _ _,
      fun a ha b hb hsame => ?_⟩
    rw [List.mem_singleton.mp hb] at hsame
    exact hall a ha hsame

/-! ### Searching and beginning -/

/-- Nothing found: every attempt has failed. -/
theorem allFailed_of_find (h : findPublishAttempt calls runId key = none) :
    AllFailed calls runId key := by
  intro call hmem hof
  obtain ⟨j, hj⟩ := List.mem_iff_getElem?.mp hmem
  have hlt : j < calls.length := (List.getElem?_eq_some_iff.mp hj).1
  have hno := List.find?_eq_none.mp h j (List.mem_reverse.mpr (List.mem_range.mpr hlt))
  by_contra hstatus
  refine hno ?_
  rw [hj]
  exact decide_eq_true ⟨hof, hstatus⟩

/-- What is found is the last attempt of its operation. -/
theorem lastAttempt_of_find (hguarded : Guarded calls)
    (h : findPublishAttempt calls runId key = some record) : LastAttempt calls runId record := by
  have hfound := List.find?_some h
  rw [Option.any_eq_true] at hfound
  obtain ⟨call, hcall, hof⟩ := hfound
  replace hof := of_decide_eq_true hof
  refine ⟨call, hcall, hof.1.1, fun j later hj hlater hsame => hof.2 ?_⟩
  obtain ⟨hi, rfl⟩ := List.getElem?_eq_some_iff.mp hcall
  obtain ⟨hj', rfl⟩ := List.getElem?_eq_some_iff.mp hlater
  exact List.pairwise_iff_getElem.mp hguarded.failed record j hi hj' hj
    ⟨hsame.1.symm, hsame.2.symm⟩

theorem lastAttempt_append (calls : List AgentToolCall) (row : AgentToolCall) :
    LastAttempt (calls ++ [row]) row.runId calls.length := by
  refine ⟨row, by simp, rfl, fun j later hj hlater _ => ?_⟩
  have hlt := (List.getElem?_eq_some_iff.mp hlater).1
  rw [List.length_append, List.length_singleton] at hlt
  exact absurd hlt (by omega)

/-! ## Who may write -/

/-- The `i`-th context was issued for the run and has not lapsed. -/
def Owns (s : Sys) (q : String) (i : Nat) : Prop :=
  ∃ held, s.issued[i]? = some held ∧ held.runId = q ∧
    ¬ Lapsed (fenceOf q s) held.ctx.fencingToken s.clock

/-- The `i`-th context was issued for the run. -/
def IssuedFor (s : Sys) (q : String) (i : Nat) : Prop :=
  ∃ held, s.issued[i]? = some held ∧ held.runId = q

variable {limits : AdmissionLimits} {s : Sys} {i j : Nat}

/-- A context that passes `can_write` owns the run, and no other does. -/
theorem owns_of_canWrite (hinv : IssuedInv s) {held : Issued} (hi : s.issued[i]? = some held)
    (hw : LeaseService.canWrite s.db s.clock held.runId held.ctx = true) :
    Owns s held.runId i ∧ ∀ j, j ≠ i → ¬ Owns s held.runId j := by
  obtain ⟨_, hheld, hlive⟩ := CanWrite.live ⟨held, hi, hw⟩
  rw [hi] at hheld
  cases hheld
  refine ⟨⟨held, hi, rfl, fun hlapsed => hlapsed.not_live hlive⟩, fun j hne => ?_⟩
  rintro ⟨other, hj, hrun, halive⟩
  refine halive (Or.inl ?_)
  rw [hlive.1]
  have hle := hinv.le_fence hj
  rw [hrun, hlive.1] at hle
  refine lt_of_le_of_ne hle fun heq => ?_
  rcases Nat.lt_or_gt_of_ne hne with hlt | hlt
  · exact absurd heq (Nat.ne_of_lt (hinv.lt_of_lt hj hi hlt hrun.symm))
  · exact absurd heq (Nat.ne_of_gt (hinv.lt_of_lt hi hj hlt hrun))

/-- A context keeps its run and its token. -/
theorem issued_step (limits : AdmissionLimits) (e : AgentRuntime.Event) {held : Issued} (hi : s.issued[i]? = some held) :
    ∃ held', (step limits s e).issued[i]? = some held' ∧ held'.runId = held.runId ∧
      held'.ctx.fencingToken = held.ctx.fencingToken := by
  have hpre := tokens_prefix limits [e] s
  have htoken := getElem?_tokens hi
  obtain ⟨hlt, _⟩ := List.getElem?_eq_some_iff.mp htoken
  have htoken' : (tokens (step limits s e).issued)[i]?
      = some (held.runId, held.ctx.fencingToken) := by
    obtain ⟨rest, hrest⟩ := hpre
    rw [show tokens (step limits s e).issued = tokens s.issued ++ rest from hrest.symm,
      List.getElem?_append_left hlt]
    exact htoken
  unfold tokens at htoken'
  rw [List.getElem?_map, Option.map_eq_some_iff] at htoken'
  obtain ⟨held', hi', heq⟩ := htoken'
  rw [Prod.mk.injEq] at heq
  exact ⟨held', hi', heq.1, heq.2⟩

theorem IssuedFor.step (e : AgentRuntime.Event) (h : IssuedFor s q i) :
    IssuedFor (step limits s e) q i := by
  obtain ⟨held, hi, rfl⟩ := h
  obtain ⟨held', hi', hrun, _⟩ := issued_step limits e hi
  exact ⟨held', hi', hrun⟩

/-- A lapsed context does not come back. -/
theorem Owns.of_step (e : AgentRuntime.Event) (hissued : IssuedFor s q i)
    (h : Owns (AgentRuntime.step limits s e) q i) : Owns s q i := by
  obtain ⟨held, hi, rfl⟩ := hissued
  obtain ⟨held', hi', hrun, htoken⟩ := issued_step limits e hi
  obtain ⟨_, hget, _, halive⟩ := h
  rw [hi'] at hget
  cases hget
  refine ⟨held, hi, rfl, fun hlapsed => halive ?_⟩
  rw [htoken]
  exact (step_driven limits held.runId).lapsed_run [e] s hlapsed

theorem Owns.of_wait {elapsed : Nat}
    (h : Owns { s with clock := s.clock + elapsed } q i) : Owns s q i := by
  obtain ⟨held, hi, hrun, halive⟩ := h
  exact ⟨held, hi, hrun, fun hlapsed => halive (hlapsed.later (Nat.le_add_right _ _))⟩

/-- A claim adds the context of its run. -/
theorem issuedFor_claim {owner : String} {leaseSeconds : Nat}
    (h : s.issued.length
      < (AgentRuntime.step limits s { op := .claim q owner leaseSeconds }).issued.length) :
    IssuedFor (AgentRuntime.step limits s { op := .claim q owner leaseSeconds }) q
      s.issued.length := by
  rcases step_cases limits s { op := .claim q owner leaseSeconds } with ⟨db, issued, hop, hs⟩ | hs
  · rw [hs] at h ⊢
    obtain ⟨⟨db₁, ctx?⟩, _, hop⟩ := bind_ok.mp hop
    cases ctx? with
    | none =>
      cases hop
      exact absurd h (Nat.lt_irrefl _)
    | some ctx =>
      cases hop
      exact ⟨⟨q, ctx⟩, by simp, rfl⟩
  · rw [hs] at h
    exact absurd h (Nat.lt_irrefl _)

/-! ## What a worker knows -/

namespace PublishPhase

/-- The context the worker holds. -/
def index? : PublishPhase → Option Nat
  | ready i | beginning i _ _ _ | reconciling i _ _ | sending i _ _ _ | settling i _ _ => some i
  | claiming | ended => none

/-- The attempt in its hands. -/
def record? : PublishPhase → Option Nat
  | reconciling _ record _ | sending _ record _ _ | settling _ record _ => some record
  | _ => none

/-- The operation it found no attempt of. -/
def key? : PublishPhase → Option String
  | beginning _ key _ _ => some key
  | _ => none

end PublishPhase

/-- What a worker may rely on. Its attempt is a row of its run; and as long
as it owns the run, that attempt is the last one, and an operation it found
no attempt of has none that has not failed. -/
structure KnowsWorker (s : Publishing) (w : Publisher) : Prop where
  issued : ∀ i ∈ w.phase.index?, IssuedFor s.sys w.runId i
  attempt : ∀ record ∈ w.phase.record?, ∃ call, s.toolCalls[record]? = some call ∧
    call.runId = w.runId
  free : ∀ i ∈ w.phase.index?, ∀ key ∈ w.phase.key?, Owns s.sys w.runId i →
    AllFailed s.toolCalls w.runId key
  last : ∀ i ∈ w.phase.index?, ∀ record ∈ w.phase.record?, Owns s.sys w.runId i →
    LastAttempt s.toolCalls w.runId record

/-- The workers know; nothing is asked of the other calls. -/
def Knows (s : Publishing) : PublishCall → Prop
  | .worker w => KnowsWorker s w
  | _ => True

/-- The context a call holds. -/
def Holds (c : PublishCall) (i : Nat) : Prop :=
  match c with
  | .worker w => w.phase.index? = some i
  | _ => False

/-- The shared invariant. -/
structure ChainInv (s : Publishing) : Prop where
  issued : IssuedInv s.sys
  guarded : Guarded s.toolCalls

variable {s s' : Publishing} {w d : Publisher}

/-- Time and the lifecycle of the runs take nothing from a worker. -/
theorem KnowsWorker.of_sys {sys : Sys} (h : KnowsWorker s w)
    (hissued : ∀ i, IssuedFor s.sys w.runId i → IssuedFor sys w.runId i)
    (howns : ∀ i, IssuedFor s.sys w.runId i → Owns sys w.runId i → Owns s.sys w.runId i) :
    KnowsWorker { s with sys := sys } w where
  issued i hi := hissued i (h.issued i hi)
  attempt := h.attempt
  free i hi key hkey ho := h.free i hi key hkey (howns i (h.issued i hi) ho)
  last i hi record hrecord ho := h.last i hi record hrecord (howns i (h.issued i hi) ho)

/-- A statement on the table takes nothing from a worker it is no concern of:
either it keeps the rows of the worker's run, or the worker does not own its
run any more. -/
theorem KnowsWorker.of_calls {calls : List AgentToolCall} (h : KnowsWorker s w)
    (hkept : InPlace s.toolCalls calls)
    (hother : KeepsRun w.runId s.toolCalls calls ∨
      ∀ i ∈ w.phase.index?, ¬ Owns s.sys w.runId i) :
    KnowsWorker { s with toolCalls := calls } w where
  issued := h.issued
  attempt record hrecord := by
    obtain ⟨call, hcall, hrun⟩ := h.attempt record hrecord
    obtain ⟨call', hcall', hid⟩ := hkept record call hcall
    exact ⟨call', hcall', (congrArg AttemptId.runId hid).trans hrun⟩
  free i hi key hkey ho := by
    rcases hother with hkeeps | hno
    · exact hkeeps.allFailed (h.free i hi key hkey ho)
    · exact absurd ho (hno i hi)
  last i hi record hrecord ho := by
    rcases hother with hkeeps | hno
    · exact hkeeps.lastAttempt (h.last i hi record hrecord ho)
    · exact absurd ho (hno i hi)

/-- A statement of the owner of a run takes nothing from another worker: one
on the same run has lost it. -/
theorem KnowsWorker.of_other {calls : List AgentToolCall} {i : Nat} (hd : KnowsWorker s d)
    (hkept : InPlace s.toolCalls calls)
    (hkeeps : q ≠ d.runId → KeepsRun d.runId s.toolCalls calls)
    (hothers : ∀ j, j ≠ i → ¬ Owns s.sys q j) (hne : d.phase.index? ≠ some i) :
    KnowsWorker { s with toolCalls := calls } d := by
  refine hd.of_calls hkept ?_
  by_cases hsame : q = d.runId
  · refine Or.inr fun j hj => ?_
    rw [← hsame]
    refine hothers j fun heq => hne ?_
    rw [← heq]
    exact hj
  · exact Or.inl (hkeeps hsame)

/-- A worker without an attempt knows what it needs of its context. -/
theorem knowsWorker_ready (h : ∀ i ∈ w.phase.index?, IssuedFor s.sys w.runId i)
    (hkey : w.phase.key? = none) (hrecord : w.phase.record? = none) : KnowsWorker s w where
  issued := h
  attempt record hr := by rw [hrecord] at hr; cases hr
  free i hi key hk := by rw [hkey] at hk; cases hk
  last i hi record hr := by rw [hrecord] at hr; cases hr

/-- A worker keeps what it knows of its attempt. -/
theorem KnowsWorker.same_attempt (h : KnowsWorker s w) (hrun : d.runId = w.runId)
    (hindex : d.phase.index? = w.phase.index?) (hkey : d.phase.key? = none)
    (hrecord : d.phase.record? = w.phase.record?) : KnowsWorker s d where
  issued i hi := by
    rw [hrun]
    exact h.issued i (hindex ▸ hi)
  attempt record hr := by
    rw [hrun]
    exact h.attempt record (hrecord ▸ hr)
  free i hi key hk := by rw [hkey] at hk; cases hk
  last i hi record hr := by
    rw [hrun]
    exact h.last i (hindex ▸ hi) record (hrecord ▸ hr)

/-! ### The statements of a worker -/

theorem knowsWorker_find (hinv : ChainInv s) {i : Nat} (hi : IssuedFor s.sys w.runId i)
    (hphase : w.phase = .ready i) : KnowsWorker s (s.find w i) := by
  have hready : ∀ j ∈ w.phase.index?, IssuedFor s.sys w.runId j := by
    intro j hj
    rw [hphase] at hj
    cases hj
    exact hi
  have hself : ∀ j ∈ some i, IssuedFor s.sys w.runId j := by
    intro j hj
    cases hj
    exact hi
  unfold Publishing.find
  split
  · exact knowsWorker_ready (fun j hj => nomatch hj) rfl rfl
  · split
    next digest key _ _ =>
      split
      next record hfind =>
        obtain ⟨call, hcall, hrun, hlater⟩ := lastAttempt_of_find hinv.guarded hfind
        refine ⟨hself, fun r hr => ?_, fun j hj k hk => (nomatch hk), fun j hj r hr _ => ?_⟩
        · cases hr
          exact ⟨call, hcall, hrun⟩
        · cases hr
          exact ⟨call, hcall, hrun, hlater⟩
      next hfind =>
        refine ⟨hself, fun r hr => (nomatch hr), fun j hj k hk _ => ?_,
          fun j hj r hr => (nomatch hr)⟩
        cases hk
        exact allFailed_of_find hfind
    · refine knowsWorker_ready hready ?_ ?_ <;> simp [hphase, PublishPhase.key?, PublishPhase.record?]

/-- A context the audit accepts owns the run, and no other does. -/
theorem owns_of_mayWrite (hinv : IssuedInv s.sys) {i : Nat} (hi : IssuedFor s.sys q i)
    (h : mayWrite s.sys.db s.sys.clock q (s.context i) = true) :
    Owns s.sys q i ∧ ∀ j, j ≠ i → ¬ Owns s.sys q j := by
  obtain ⟨held, hget, rfl⟩ := hi
  have hctx : s.context i = some held.ctx := by
    simp [Publishing.context, hget]
  rw [hctx] at h
  exact owns_of_canWrite hinv hget h

/-- What beginning an attempt does: nothing, or it adds the row under a
context that owns the run. -/
theorem begin_effect (hinv : ChainInv s) (hw : KnowsWorker s w) {i : Nat} {key digest : String}
    {e : Execution} (hphase : w.phase = .beginning i key digest e) :
    s.begin_ w i key digest e = (s, { w with phase := .ready i }) ∨
    ∃ row : AgentToolCall, row.runId = w.runId ∧ Guarded (s.toolCalls ++ [row]) ∧
      (∀ j, j ≠ i → ¬ Owns s.sys w.runId j) ∧
      s.begin_ w i key digest e
        = ({ s with toolCalls := s.toolCalls ++ [row] },
          { w with phase := .sending i s.toolCalls.length digest e }) := by
  have hi : i ∈ w.phase.index? := by
    rw [hphase]
    rfl
  have hkey : key ∈ w.phase.key? := by
    rw [hphase]
    rfl
  unfold Publishing.begin_
  split
  next run ctx hrun hctx =>
    split
    · exact Or.inl rfl
    next calls hbegin =>
      obtain ⟨hmay, hagree, rfl⟩ := begin_ok hbegin
      rw [← hctx] at hmay
      obtain ⟨howns, hothers⟩ := owns_of_mayWrite hinv.issued (hw.issued i hi) hmay
      have hall := hw.free i hi key hkey howns
      exact Or.inr ⟨_, rfl, hinv.guarded.append hall hagree rfl, hothers, rfl⟩
  · exact Or.inl rfl

/-- What settling an attempt does: nothing, or it settles the row under a
context that owns the run. -/
theorem settle_effect (hinv : ChainInv s) (hw : KnowsWorker s w) {i record : Nat}
    {outcome : ToolCallOutcome} (hphase : w.phase = .settling i record outcome) :
    (persistResult s.sys.db s.sys.clock s.toolCalls record outcome (s.context i)).1
      = s.toolCalls ∨
    ∃ call, s.toolCalls[record]? = some call ∧ call.runId = w.runId ∧
      Guarded (s.toolCalls.modify record (fun call => call.settle outcome)) ∧
      (∀ j, j ≠ i → ¬ Owns s.sys w.runId j) ∧
      (persistResult s.sys.db s.sys.clock s.toolCalls record outcome (s.context i)).1
        = s.toolCalls.modify record (fun call => call.settle outcome) := by
  have hi : i ∈ w.phase.index? := by
    rw [hphase]
    rfl
  have hrecord : record ∈ w.phase.record? := by
    rw [hphase]
    rfl
  rcases persistResult_cases s.sys.db s.sys.clock s.toolCalls record outcome (s.context i) with
    ⟨call, hcall, hmay, heq⟩ | ⟨_, heq⟩
  · obtain ⟨call', hcall', hrun⟩ := hw.attempt record hrecord
    rw [hcall] at hcall'
    cases hcall'
    rw [hrun] at hmay
    obtain ⟨howns, hothers⟩ := owns_of_mayWrite hinv.issued (hw.issued i hi) hmay
    have hlast := hw.last i hi record hrecord howns
    exact Or.inr ⟨call, hcall, hrun, hinv.guarded.settle hlast outcome, hothers, by rw [heq]⟩
  · exact Or.inl (by rw [heq])

theorem knowsWorker_settleNext (hw : KnowsWorker s w) {i record : Nat}
    (hindex : w.phase.index? = some i) (hrecord : w.phase.record? = some record)
    (outcome : Option ToolCallOutcome) :
    KnowsWorker s (Publishing.settleNext w i record outcome) := by
  unfold Publishing.settleNext
  split
  · exact knowsWorker_ready (fun j hj => hw.issued j (hindex ▸ hj)) rfl rfl
  · exact hw.same_attempt rfl hindex.symm rfl hrecord.symm

/-- An operation of the lifecycle keeps the invariant and what every worker
knows. -/
theorem ChainInv.lifecycle (hinv : ChainInv s) (op : Op) :
    ChainInv { s with sys := step limits s.sys { op := op } } :=
  ⟨issuedInv_step limits s.sys { op := op } hinv.issued, hinv.guarded⟩

theorem KnowsWorker.lifecycle (h : KnowsWorker s w) (op : Op) :
    KnowsWorker { s with sys := step limits s.sys { op := op } } w :=
  h.of_sys (fun _ hi => hi.step { op := op }) (fun _ hi ho => ho.of_step { op := op } hi)

/-- A statement of a worker keeps the invariant, tells the worker what it
needs next, and takes nothing from the workers with other contexts. -/
theorem turn_keeps (limits : AdmissionLimits) (hinv : ChainInv s) (hw : KnowsWorker s w) :
    ChainInv (s.turn limits w).1 ∧ KnowsWorker (s.turn limits w).1 (s.turn limits w).2 ∧
      ∀ d, KnowsWorker s d → (∀ i, w.phase.index? = some i → d.phase.index? ≠ some i) →
        KnowsWorker (s.turn limits w).1 d := by
  cases hphase : w.phase with
  | claiming =>
    have hturn : s.turn limits w = s.claim limits w := by
      unfold Publishing.turn
      rw [hphase]
    rw [hturn]
    unfold Publishing.claim
    dsimp only
    split
    next hgrew =>
      refine ⟨hinv.lifecycle _, knowsWorker_ready (fun j hj => ?_) rfl rfl,
        fun d hd _ => hd.lifecycle _⟩
      cases hj
      exact issuedFor_claim hgrew
    · exact ⟨hinv.lifecycle _, knowsWorker_ready (fun j hj => nomatch hj) rfl rfl,
        fun d hd _ => hd.lifecycle _⟩
  | ready i =>
    have hturn : s.turn limits w = (s, s.find w i) := by
      unfold Publishing.turn
      rw [hphase]
    rw [hturn]
    exact ⟨hinv, knowsWorker_find hinv (hw.issued i (by rw [hphase]; rfl)) hphase,
      fun d hd _ => hd⟩
  | beginning i key digest e =>
    have hturn : s.turn limits w = s.begin_ w i key digest e := by
      unfold Publishing.turn
      rw [hphase]
    have hi : IssuedFor s.sys w.runId i := hw.issued i (by rw [hphase]; rfl)
    have hself : ∀ j ∈ some i, IssuedFor s.sys w.runId j := by
      intro j hj
      cases hj
      exact hi
    rw [hturn]
    rcases begin_effect hinv hw hphase with heq | ⟨row, hrun, hguarded, hothers, heq⟩
    · rw [heq]
      exact ⟨hinv, knowsWorker_ready hself rfl rfl, fun d hd _ => hd⟩
    · rw [heq]
      have hlast := lastAttempt_append s.toolCalls row
      rw [hrun] at hlast
      refine ⟨⟨hinv.issued, hguarded⟩, ⟨hself, fun r hr => ?_, fun j hj k hk => (nomatch hk),
        fun j hj r hr _ => ?_⟩, fun d hd hne => hd.of_other (kept_append _ row)
          (fun hrow => keepsRun_append (hrun.trans_ne hrow)) hothers (hne i rfl)⟩
      · cases hr
        exact ⟨row, by simp, hrun⟩
      · cases hr
        exact hlast
  | reconciling i record e =>
    have hturn : s.turn limits w = (s, Publishing.settleNext w i record
        (committedOutcome e.gateway.text (e.gateway.getPublishResult e.reconciled))) := by
      unfold Publishing.turn
      rw [hphase]
    rw [hturn]
    exact ⟨hinv, knowsWorker_settleNext hw (by rw [hphase]; rfl) (by rw [hphase]; rfl) _,
      fun d hd _ => hd⟩
  | sending i record digest e =>
    have hturn : s.turn limits w = (s, Publishing.settleNext w i record
        (publishOutcome e.gateway.text digest (e.gateway.call (s.wire i e))
          (e.gateway.getPublishResult e.reconciled))) := by
      unfold Publishing.turn
      rw [hphase]
    rw [hturn]
    exact ⟨hinv, knowsWorker_settleNext hw (by rw [hphase]; rfl) (by rw [hphase]; rfl) _,
      fun d hd _ => hd⟩
  | settling i record outcome =>
    have hturn : s.turn limits w = ({ s with
        toolCalls :=
          (persistResult s.sys.db s.sys.clock s.toolCalls record outcome (s.context i)).1 },
        { w with phase := .ready i }) := by
      unfold Publishing.turn
      rw [hphase]
    have hself : ∀ j ∈ some i, IssuedFor s.sys w.runId j := by
      intro j hj
      cases hj
      exact hw.issued i (by rw [hphase]; rfl)
    rw [hturn]
    rcases settle_effect hinv hw hphase with heq | ⟨call, hcall, hrun, hguarded, hothers, heq⟩
    · rw [heq]
      exact ⟨hinv, knowsWorker_ready hself rfl rfl, fun d hd _ => hd⟩
    · rw [heq]
      exact ⟨⟨hinv.issued, hguarded⟩, knowsWorker_ready hself rfl rfl,
        fun d hd hne => hd.of_other (kept_settle _ _ _)
          (fun hrow => keepsRun_settle hcall (hrun.trans_ne hrow) outcome) hothers (hne i rfl)⟩
  | ended =>
    have hturn : s.turn limits w = (s, w) := by
      unfold Publishing.turn
      rw [hphase]
    rw [hturn]
    exact ⟨hinv, hw, fun d hd _ => hd⟩

theorem index_settleNext (w : Publisher) (i record : Nat) (outcome : Option ToolCallOutcome) :
    (Publishing.settleNext w i record outcome).phase.index? = some i := by
  unfold Publishing.settleNext
  split <;> rfl

/-- A worker takes the context of its own claim only. -/
theorem turn_takes (limits : AdmissionLimits) {i : Nat}
    (h : (s.turn limits w).2.phase.index? = some i) :
    w.phase.index? = some i ∨ s.sys.issued.length ≤ i := by
  unfold Publishing.turn at h
  split at h
  next hphase =>
    unfold Publishing.claim at h
    dsimp only at h
    split at h
    · cases h
      exact Or.inr (Nat.le_refl _)
    · cases h
  next hphase =>
    left
    rw [hphase]
    unfold Publishing.find at h
    split at h
    · cases h
    · split at h
      · split at h
        · exact h
        · exact h
      · rw [hphase] at h
        exact h
  next hphase =>
    left
    rw [hphase]
    unfold Publishing.begin_ at h
    split at h
    · split at h
      · exact h
      · exact h
    · exact h
  next hphase =>
    left
    rw [hphase]
    rw [index_settleNext] at h
    exact h
  next hphase =>
    left
    rw [hphase]
    rw [index_settleNext] at h
    exact h
  next hphase =>
    left
    rw [hphase]
    exact h
  next hphase =>
    exact Or.inl h

/-! ## Every run -/

/-- The workers in a proof outline: their contexts are in their own hands. -/
theorem publishing_custody (limits : AdmissionLimits) :
    Custody (Publishing.program limits) (fun _ _ => True) ChainInv Knows Holds
      (fun s i => s.sys.issued.length ≤ i) where
  wait s t h := ⟨⟨h.issued.increasing, h.issued.le_row⟩, h.guarded⟩
  waits s t c h := by
    cases c with
    | worker w => exact KnowsWorker.of_sys h (fun _ hi => hi) (fun _ _ ho => ho.of_wait)
    | _ => trivial
  call s a c _ hcall := by
    cases a with
    | worker runId owner leaseSeconds executions =>
      cases hcall
      exact ⟨knowsWorker_ready (fun j hj => nomatch hj) rfl rfl, fun i hi => nomatch hi⟩
    | _ =>
      cases hcall
      exact ⟨trivial, fun _ h => h⟩
  exec s c hinv hc _ := by
    cases c with
    | worker w =>
      obtain ⟨hinv', hw', _⟩ := turn_keeps limits hinv hc
      exact ⟨hinv', hw'⟩
    | lifecycle op => exact ⟨hinv.lifecycle op, trivial⟩
    | markStale current => exact ⟨⟨hinv.issued, hinv.guarded.markStale current⟩, trivial⟩
    | done => exact ⟨hinv, trivial⟩
  held s c i hc hi hfresh := by
    cases c with
    | worker w =>
      obtain ⟨held, hget, _⟩ := KnowsWorker.issued hc i hi
      exact absurd (List.getElem?_eq_some_iff.mp hget).1 (Nat.not_lt.mpr hfresh)
    | _ => exact hi
  takes s c i _ _ _ hi := by
    cases c with
    | worker w => exact turn_takes limits hi
    | _ => exact Or.inl hi
  spares s c d hinv hc _ hd hapart := by
    cases d with
    | worker d =>
      cases c with
      | worker w =>
        obtain ⟨_, _, hspares⟩ := turn_keeps limits hinv hc
        exact hspares d hd fun i hi => hapart i hi
      | lifecycle op => exact KnowsWorker.lifecycle hd op
      | markStale current =>
        have hkeeps := keepsRun_markStale d.runId s.toolCalls current
        exact KnowsWorker.of_calls hd hkeeps.kept (Or.inl hkeeps)
      | done => exact hd
    | _ => trivial

/-- A request leaves for an attempt of the run whose earlier attempts are all
recorded as failed. -/
def SendsGuarded (s : Publishing) : PublishCall → Prop
  | .worker w => ∀ record ∈ s.sends w, ∃ call, s.toolCalls[record]? = some call ∧
      call.runId = w.runId ∧ ∀ j earlier, j < record → s.toolCalls[j]? = some earlier →
        earlier.AttemptOf call.runId call.logicalOperationKey → earlier.status = .failed
  | _ => True

/-- The attempts of an operation carry one idempotency key and one digest, and
are numbered in the order of their creation. -/
structure OneChain (calls : List AgentToolCall) (runId key : String) : Prop where
  agree : ∀ a ∈ chain calls runId key, ∀ b ∈ chain calls runId key,
    a.idempotencyKey = b.idempotencyKey ∧ a.requestDigest = b.requestDigest
  numbered : (chain calls runId key).map (·.toolAttempt)
    = List.range' 1 (chain calls runId key).length

theorem Guarded.oneChain (h : Guarded calls) (runId key : String) : OneChain calls runId key where
  agree a ha b hb := by
    obtain ⟨hamem, haof⟩ := mem_chain.mp ha
    obtain ⟨hbmem, hbof⟩ := mem_chain.mp hb
    exact h.agree a hamem b hbmem ⟨haof.1.trans hbof.1.symm, haof.2.trans hbof.2.symm⟩
  numbered := h.numbered runId key

/-- What the invariant says of a request that leaves. -/
theorem sendsGuarded (hinv : ChainInv s) {c : PublishCall} (hc : Knows s c) : SendsGuarded s c := by
  cases c with
  | worker w =>
    intro record hsends
    have hrecord : record ∈ w.phase.record? := by
      unfold Publishing.sends at hsends
      split at hsends
      next hphase =>
        rw [hphase]
        split at hsends
        · cases hsends
        · exact hsends
      · cases hsends
    obtain ⟨call, hcall, hrun⟩ := KnowsWorker.attempt hc record hrecord
    refine ⟨call, hcall, hrun, fun j earlier hj hget hof => ?_⟩
    obtain ⟨hi, rfl⟩ := List.getElem?_eq_some_iff.mp hget
    obtain ⟨hj', rfl⟩ := List.getElem?_eq_some_iff.mp hcall
    exact List.pairwise_iff_getElem.mp hinv.guarded.failed j record hi hj' hj hof
  | _ => trivial

/-- **Publications form one guarded chain.** Whatever the database holds of
runs, in every run of workers, services and reconcilers the attempts of a
publication agree and are numbered, and a request leaves only when every
earlier attempt is recorded as failed. -/
theorem publish_attempts_guarded (limits : AdmissionLimits) (db : Db) (clock : Time)
    (es : List (Interleave.Event PublishAction)) :
    Along (Publishing.program limits).step
        ((Publishing.program limits).Meets SendsGuarded) (Publishing.start db clock) es ∧
      ∀ runId key, OneChain
        (Runs.run (Publishing.program limits).step (Publishing.start db clock) es).shared.toolCalls
        runId key := by
  have hstart : InCustody ChainInv Knows Holds (Publishing.start db clock) :=
    ⟨⟨⟨⟨List.Pairwise.nil, fun p hp => absurd hp List.not_mem_nil⟩,
      ⟨fun a ha => absurd ha List.not_mem_nil, fun _ _ => rfl, List.Pairwise.nil⟩⟩,
      fun c hc => absurd hc List.not_mem_nil⟩, fun i j c d _ hc => nomatch hc⟩
  refine ⟨along_of_inv (fun w e h => (publishing_custody limits).step w e h (meets_trivial w e))
    (fun w e h => ?_) es _ hstart, fun runId key => ?_⟩
  · unfold Program.Meets
    split
    · trivial
    · intro c hc
      exact sendsGuarded ((publishing_custody limits).wait _ _ h.asserted.1)
        ((publishing_custody limits).waits _ _ c (h.asserted.2 c (List.mem_of_getElem? hc)))
  · have hrun := (publishing_custody limits).run es _ hstart (meets_true es _)
    exact hrun.asserted.1.guarded.oneChain runId key

end AgentRuntime
