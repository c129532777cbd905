import AgentRuntime.CallbackReconciliation

/-!
# Callbacks that were lost

The callbacks of a run from some point on are lost, and the reconciliation
takes their place. The lost ones would have left what the last of them that is
taken says (`run_shows`); the reconciliation leaves what the row of the run
says, where it moves the reference at all, and never touches the archive. So
they agree when the row is still as its last event announced it, and the
archive has nothing to catch up with (`Recoverable`).

A pass over the references ends at the first query that raises, and the
adapter raises for a run that has succeeded in part: `partial` is not among
the statuses it allows.
-/

namespace AgentRuntime

open Keyed Runs MemoryAgentCallbackService MemoryAgentCallbackReconciliationService
open MemoryAgentAdapter

/-! ## Runs of the Runtime -/

theorem Move.privacyVersion_le {limits : AdmissionLimits} {now : Time}
    {causes : Cause → AgentRun → Prop} {r r' : AgentRun} {shift : Shift} {event : Option String}
    (h : Move limits now causes r r' shift event) : r.privacyVersion ≤ r'.privacyVersion := by
  cases h with
  | requestPurge => exact Nat.le_succ _
  | _ => exact le_refl _

/-- Privacy versions are positive. -/
def PrivacyVersioned (s : Sys) : Prop :=
  ∀ q r, s.db.runs.find? q = some r → 1 ≤ r.privacyVersion

theorem privacyVersioned_step (limits : AdmissionLimits) (s : Sys) (e : Event)
    (h : PrivacyVersioned s) : PrivacyVersioned (step limits s e) := by
  intro q r hfind
  cases step_runStep limits s e q with
  | same hs => exact h q r (hs.row ▸ hfind)
  | created hnone command definition policy callerId tenantId av hrow =>
    rw [hrow] at hfind
    cases hfind
    exact le_refl 1
  | moved r₀ r₁ shift event hfind₀ hmove hrow =>
    rw [hrow] at hfind
    cases hfind
    have hle := hmove.privacyVersion_le
    have hpos := h q r₀ hfind₀
    cases event <;> exact le_trans hpos hle

theorem privacyVersioned_reach (limits : AdmissionLimits) (es : List Event) :
    PrivacyVersioned (reach limits es) :=
  run_inv (privacyVersioned_step limits) es {} fun _ _ h => nomatch h

/-- What the adapter makes of the row of a run. -/
def AgentRun.state (run : AgentRun) : RuntimeRunState where
  runId := run.runId
  status := run.status.code
  dispatchState := run.dispatchState.code
  privacyState := run.privacyState.code
  privacyVersion := run.privacyVersion
  lastEventSeq := run.lastEventSeq
  statusVersion := run.statusVersion

theorem entryAmong_str {data : List (String × Json)} {key s : String} {allowed : List String}
    (h : Json.get? key data = some (.str s)) :
    entryAmong data key allowed = if s ∈ allowed then .ok s else .error queryInvalid := by
  unfold entryAmong
  rw [h]
  by_cases hs : s ∈ allowed
  · rw [if_pos hs]
    exact bind_ok.mpr ⟨true, congrArg Except.ok (decide_eq_true hs), rfl⟩
  · rw [if_neg hs]
    show (do require (decide (s ∈ allowed) = true) queryInvalid; pure s) = _
    rw [decide_eq_false hs]
    rfl

theorem entryAtLeast_int {data : List (String × Json)} {key : String} {least n : Int}
    (h : Json.get? key data = some (.int n)) (hn : least ≤ n) :
    entryAtLeast data key least = .ok n := by
  unfold entryAtLeast
  rw [h, Option.bind_some, Json.atLeast?, if_pos hn]
  rfl

theorem DispatchState.code_mem (d : DispatchState) : d.code ∈ allowedDispatchStates := by
  cases d <;> decide

theorem PrivacyState.code_mem (p : PrivacyState) : p.code ∈ allowedPrivacyStates := by
  cases p <;> decide

/-- The adapter refuses a status that it does not know, and nothing else. -/
theorem readRunState_detail {run : AgentRun} (hprivacy : 1 ≤ run.privacyVersion)
    (hversion : 1 ≤ run.statusVersion) :
    readRunState run.runId run.detail =
      if run.status.code ∈ allowedStatuses then .ok run.state else .error queryInvalid := by
  have hid : (Json.get? "run_id" run.detail).bind Json.str? = some run.runId := rfl
  have hdispatch := @entryAmong_str run.detail "dispatch_state" _ allowedDispatchStates rfl
  have hprivate := @entryAmong_str run.detail "privacy_state" _ allowedPrivacyStates rfl
  rw [if_pos run.dispatchState.code_mem] at hdispatch
  rw [if_pos run.privacyState.code_mem] at hprivate
  have hprivacyVersion := entryAtLeast_int (show Json.get? "privacy_version" run.detail
    = some (.int run.privacyVersion) from rfl) (Int.ofNat_le.mpr hprivacy)
  have hseq := entryAtLeast_int (show Json.get? "last_event_seq" run.detail
    = some (.int run.lastEventSeq) from rfl) (Int.natCast_nonneg _)
  have hstatusVersion := entryAtLeast_int (show Json.get? "status_version" run.detail
    = some (.int run.statusVersion) from rfl) (Int.ofNat_le.mpr hversion)
  unfold readRunState
  rw [entryAmong_str (show Json.get? "status" run.detail = some (.str run.status.code) from rfl)]
  by_cases hstatus : run.status.code ∈ allowedStatuses
  · rw [if_pos hstatus, if_pos hstatus]
    refine bind_ok.mpr ⟨(), require_ok.mpr hid, bind_ok.mpr ⟨_, rfl, ?_⟩⟩
    refine bind_ok.mpr ⟨_, hdispatch, bind_ok.mpr ⟨_, hprivate, ?_⟩⟩
    refine bind_ok.mpr ⟨_, hprivacyVersion, bind_ok.mpr ⟨_, hseq, ?_⟩⟩
    exact bind_ok.mpr ⟨_, hstatusVersion, rfl⟩
  · rw [if_neg hstatus, if_neg hstatus, require, if_pos hid]
    rfl

/-- A request to the Runtime: it may fail, or find no run. -/
def Db.answer (db : Db) (failing : String → Option ServiceError) (runId : String) :
    Result (Option (List (String × Json))) :=
  match failing runId with
  | some e => .error e
  | none => pure ((db.runs.find? runId).map AgentRun.detail)

/-- The query raises: the request fails, or the run is in a status that the
adapter does not know. -/
def Db.Refuses (db : Db) (failing : String → Option ServiceError) (runId : String) : Prop :=
  failing runId ≠ none ∨
    ∃ run ∈ db.runs.find? runId, run.status.code ∉ allowedStatuses

instance (db : Db) (failing : String → Option ServiceError) (runId : String) :
    Decidable (db.Refuses failing runId) := by
  unfold Db.Refuses; infer_instance

theorem streamInv_reach {limits : AdmissionLimits} {es : List Event} {q : String} {run : AgentRun}
    (hrun : (reach limits es).db.runs.find? q = some run) :
    StreamInv run (eventsOf (reach limits es).db q) := by
  have h : StreamsInv (reach limits es) := run_inv (streamsInv_step limits) es {} streamsInv_init
  have hq := h q
  rw [hrun] at hq
  exact hq

/-- The state of a run, where the request does not fail. -/
theorem getRunState_run {limits : AdmissionLimits} {es : List Event}
    {failing : String → Option ServiceError} {q : String} {run : AgentRun}
    (hfail : failing q = none) (hrun : (reach limits es).db.runs.find? q = some run) :
    getRunState ((reach limits es).db.answer failing) q =
      if run.status.code ∈ allowedStatuses then .ok (some run.state) else .error queryInvalid := by
  have hid : run.runId = q := Table.key_of_find? hrun
  have hread := readRunState_detail (privacyVersioned_reach limits es q run hrun)
    (streamInv_reach hrun).version_pos
  have hanswer : (reach limits es).db.answer failing q = .ok (some run.detail) := by
    unfold Db.answer
    rw [hfail, hrun]
    rfl
  unfold getRunState
  rw [hanswer]
  show some <$> readRunState q run.detail = _
  rw [← hid, hread]
  split <;> rfl

theorem getRunState_isOk {limits : AdmissionLimits} {es : List Event}
    {failing : String → Option ServiceError} {q : String} :
    (∃ answer, getRunState ((reach limits es).db.answer failing) q = .ok answer) ↔
      ¬ (reach limits es).db.Refuses failing q := by
  unfold Db.Refuses
  cases hfail : failing q with
  | some e =>
    have herror : getRunState ((reach limits es).db.answer failing) q = .error e := by
      unfold getRunState Db.answer
      rw [hfail]
      rfl
    simp [herror]
  | none =>
    cases hrun : (reach limits es).db.runs.find? q with
    | none =>
      have hok : getRunState ((reach limits es).db.answer failing) q = .ok none := by
        unfold getRunState Db.answer
        rw [hfail, hrun]
        rfl
      simp [hok]
    | some run =>
      rw [getRunState_run hfail hrun]
      by_cases hstatus : run.status.code ∈ allowedStatuses
      · simp [hstatus]
      · simp [hstatus]

/-! ## The callbacks of a run -/

/-- The deliveries of events of a run, each with its time and its trace. -/
def deliveriesFor (run : AgentRun) (times : CallbackEvent → Time) (trace : CallbackEvent → Json)
    (events : List CallbackEvent) : List Delivery :=
  events.map fun e => ⟨times e, e.payload run (trace e)⟩

/-- A callback that is read from the payload of an event is that event. -/
theorem read_payload {run : AgentRun} {trace : Json} {e : CallbackEvent} {c : Callback}
    (h : read (e.payload run trace) = .ok c) :
    c.runId = e.runId ∧ c.archiveId = run.businessId ∧ c.eventSeq = e.eventSeq ∧
      c.statusVersion = e.statusVersion ∧ statusByEvent c.event = e.statusInPayload.code := by
  obtain ⟨runId, hrunId, h⟩ := bind_ok.mp h
  obtain ⟨archiveId, harchiveId, h⟩ := bind_ok.mp h
  obtain ⟨event, hevent, h⟩ := bind_ok.mp h
  obtain ⟨eventSeq, heventSeq, h⟩ := bind_ok.mp h
  obtain ⟨statusVersion, hstatusVersion, h⟩ := bind_ok.mp h
  cases hrunId
  cases harchiveId
  cases hevent
  cases heventSeq
  cases hstatusVersion
  split at h
  · next r a n seq version hr ha hn hseq hversion =>
    cases hr
    cases ha
    cases hseq
    cases hversion
    split at h
    · cases h
    · next event _ =>
      obtain ⟨_, hstatus, h⟩ := bind_ok.mp h
      obtain ⟨_, _, h⟩ := bind_ok.mp h
      cases h
      exact ⟨rfl, rfl, rfl, rfl, (Option.some.inj (require_ok.mp hstatus)).symm⟩
  · cases h

/-- Events of a run are told apart by their number, and their versions follow
it. -/
theorem StreamInv.ordered {run : AgentRun} {events : List CallbackEvent}
    (h : StreamInv run events) : ∀ e ∈ events, ∀ e' ∈ events,
      (e.eventSeq ≤ e'.eventSeq → e.statusVersion ≤ e'.statusVersion) ∧
        (e.eventSeq = e'.eventSeq → e = e') := by
  have hseq : events.Pairwise fun a b => a.eventSeq < b.eventSeq := by
    rw [← List.pairwise_map (f := CallbackEvent.eventSeq) (R := (· < ·)), h.numbered]
    exact List.pairwise_lt_range'
  have hboth := hseq.and (List.pairwise_map.mp h.versions)
  exact List.Pairwise.forall_of_forall_of_flip (fun _ _ => ⟨fun _ => le_refl _, fun _ => rfl⟩)
    (hboth.imp fun ⟨hlt, hle⟩ => ⟨fun _ => hle, fun heq => absurd heq (Nat.ne_of_lt hlt)⟩)
    (hboth.imp fun ⟨hlt, _⟩ =>
      ⟨fun hge => absurd hlt (not_lt.mpr hge), fun heq => absurd heq (Nat.ne_of_gt hlt)⟩)

theorem StreamInv.eventSeq_le {run : AgentRun} {events : List CallbackEvent}
    (h : StreamInv run events) {e : CallbackEvent} (he : e ∈ events) :
    e.eventSeq ≤ run.lastEventSeq := by
  have hmem := List.mem_map_of_mem (f := CallbackEvent.eventSeq) he
  rw [h.numbered, List.mem_range'_1] at hmem
  omega

section Lost

variable {run : AgentRun} {times : CallbackEvent → Time} {trace : CallbackEvent → Json}
  {events lost : List CallbackEvent}

theorem mem_callbacks_deliveriesFor {c : Callback}
    (h : c ∈ callbacks (deliveriesFor run times trace lost)) :
    ∃ e ∈ lost, read (e.payload run (trace e)) = .ok c := by
  obtain ⟨d, hd, hread⟩ := mem_callbacks.mp h
  obtain ⟨e, he, rfl⟩ := List.mem_map.mp hd
  exact ⟨e, he, hread⟩

theorem numbered_deliveriesFor (h : StreamInv run events) (hlost : ∀ e ∈ lost, e ∈ events)
    (q : String) : Numbered q (deliveriesFor run times trace lost) := by
  intro c hc d hd _ _
  obtain ⟨e, he, hreadC⟩ := mem_callbacks_deliveriesFor hc
  obtain ⟨e', he', hreadD⟩ := mem_callbacks_deliveriesFor hd
  obtain ⟨_, _, hseqC, hversionC, _⟩ := read_payload hreadC
  obtain ⟨_, _, hseqD, hversionD, _⟩ := read_payload hreadD
  obtain ⟨hversions, heq⟩ := h.ordered e (hlost e he) e' (hlost e' he')
  rw [hseqC, hversionC, hseqD, hversionD]
  refine ⟨fun hle => Int.ofNat_le.mpr (hversions (Int.ofNat_le.mp hle)), fun hsame => ?_⟩
  have hsame : e = e' := heq (Int.ofNat.inj hsame)
  rw [hsame, hreadD] at hreadC
  exact (Except.ok.inj hreadC).symm

/-! ## Agreement -/

/-- What the two ways of recovery are compared in. -/
structure RunProgress where
  status : String
  eventSeq : Int
  statusVersion : Int
  contentStatus : ContentStatus
  deriving DecidableEq, Repr

def progress (db : MemoirDb) (runId archiveId : String) : Option RunProgress :=
  match db.runRefs.find? runId, db.archives.find? archiveId with
  | some ref, some archive =>
    some ⟨ref.status, ref.eventSeq, ref.statusVersion, archive.contentStatus⟩
  | _, _ => none

/-- The database after `reconcile_run`; what raises is rolled back. -/
def reconciled (getRunState : String → Result (Option RuntimeRunState)) (db : MemoirDb)
    (now : Time) (runId : String) : MemoirDb :=
  match reconcileRun getRunState db now runId with
  | .ok (db', _) => db'
  | .error _ => db

/-- The reconciliation moves the reference to the row of the run: the row is
ahead, in a status the adapter knows, and a success is published. -/
def Follows (ref : MemoryAgentRunRef) (archive : MemoryArchive) (run : AgentRun) : Prop :=
  ref.eventSeq < run.lastEventSeq ∧ ref.statusVersion ≤ run.statusVersion ∧
    run.status.code ∈ allowedStatuses ∧
    ¬ (run.status = .succeeded ∧
      (archive.publishedRevision = 0 ∨ archive.contentStatus ≠ .succeeded))

instance (ref : MemoryAgentRunRef) (archive : MemoryArchive) (run : AgentRun) :
    Decidable (Follows ref archive run) := by
  unfold Follows; infer_instance

/-- The callback is the last event of the run, the row is as it announced it,
and the archive has nothing to catch up with. -/
def Announces (c : Callback) (archive : MemoryArchive) (run : AgentRun) : Prop :=
  c.eventSeq = run.lastEventSeq ∧ c.statusVersion = run.statusVersion ∧
    statusByEvent c.event = run.status.code ∧ run.status ≠ .partialSucceeded ∧
    (archive.project c).contentStatus = archive.contentStatus

instance (c : Callback) (archive : MemoryArchive) (run : AgentRun) :
    Decidable (Announces c archive run) := by
  unfold Announces; infer_instance

/-- No callback that is lost would have been taken, and the row is not
followed either; or the last of them would have been, and announces the row as
it is. -/
def Recoverable (ref : MemoryAgentRunRef) (archive : MemoryArchive) (run : AgentRun)
    (lost : List Callback) : Prop :=
  (∀ c ∈ lost, ¬ Takes ref archive c) ∧ ¬ Follows ref archive run ∨
    ∃ c ∈ lost, Takes ref archive c ∧ Announces c archive run

instance (ref : MemoryAgentRunRef) (archive : MemoryArchive) (run : AgentRun)
    (lost : List Callback) : Decidable (Recoverable ref archive run lost) := by
  unfold Recoverable; infer_instance

/-- The progress a reference and an archive show. -/
def progressOf (ref : MemoryAgentRunRef) (archive : MemoryArchive) : RunProgress :=
  ⟨ref.status, ref.eventSeq, ref.statusVersion, archive.contentStatus⟩

variable {db : MemoirDb} {ref : MemoryAgentRunRef} {archive : MemoryArchive}

theorem progress_eq {ref' : MemoryAgentRunRef} (hbound : db.runRefs.find? ref.runId = some ref')
    (hfound : db.archives.find? ref.archiveId = some archive) :
    progress db ref.runId ref.archiveId = some (progressOf ref' archive) := by
  unfold progress
  rw [hbound, hfound]
  rfl

theorem progress_put (hbound : db.runRefs.find? ref.runId = some ref)
    (hfound : db.archives.find? ref.archiveId = some archive) {ref' : MemoryAgentRunRef}
    (hrun : ref'.runId = ref.runId) :
    progress { db with runRefs := db.runRefs.put ref' } ref.runId ref.archiveId
      = some (progressOf ref' archive) := by
  have hput : (db.runRefs.put ref').find? ref'.runId = some ref' :=
    Table.find?_put_self (by rw [hrun]; exact hbound)
  refine progress_eq ?_ hfound
  rw [← hrun]
  exact hput

/-- The end of `reconcile_run` moves the reference to what is ahead of it and
no success without publication. -/
theorem reconcileTo_progress (hbound : db.runRefs.find? ref.runId = some ref)
    (hfound : db.archives.find? ref.archiveId = some archive) (now : Time)
    (remote : RuntimeRunState) :
    progress (reconcileTo db now ref archive remote).1 ref.runId ref.archiveId = some
      (if (ref.eventSeq < remote.lastEventSeq ∧ ref.statusVersion ≤ remote.statusVersion) ∧
          ¬ (remote.status ∈ ["succeeded", "partial"] ∧
            (archive.publishedRevision = 0 ∨ archive.contentStatus ≠ .succeeded))
        then progressOf (ref.follow now remote) archive else progressOf ref archive) := by
  have hconfirmed : ∀ b : Bool, (if b then ref.confirmPurge now else ref).runId = ref.runId ∧
      progressOf (if b then ref.confirmPurge now else ref) archive = progressOf ref archive := by
    intro b
    cases b <;> exact ⟨rfl, rfl⟩
  obtain ⟨hrun, hsame⟩ := hconfirmed (decide (ConfirmsPurge ref remote))
  unfold reconcileTo
  dsimp only
  generalize (if decide (ConfirmsPurge ref remote) = true then ref.confirmPurge now else ref)
    = confirmed at hrun hsame ⊢
  by_cases hbehind : remote.lastEventSeq ≤ ref.eventSeq ∨ remote.statusVersion < ref.statusVersion
  · have hnot : ¬ (ref.eventSeq < remote.lastEventSeq ∧ ref.statusVersion ≤ remote.statusVersion) := by
      omega
    rw [if_pos hbehind, if_neg fun h => hnot h.1, progress_put hbound hfound hrun, hsame]
  · have hahead : ref.eventSeq < remote.lastEventSeq ∧ ref.statusVersion ≤ remote.statusVersion := by
      omega
    rw [if_neg hbehind]
    by_cases hunbacked : remote.status ∈ ["succeeded", "partial"] ∧
        (archive.publishedRevision = 0 ∨ archive.contentStatus ≠ .succeeded)
    · rw [if_pos hunbacked, if_neg fun h => h.2 hunbacked]
      refine (progress_put hbound hfound ?_).trans (congrArg some hsame)
      exact hrun
    · rw [if_neg hunbacked, if_pos ⟨hahead, hunbacked⟩]
      exact progress_put hbound hfound rfl

theorem mem_refStatuses {status : String} (h : status ∈ allowedStatuses) : status ∈ refStatuses := by
  simp only [allowedStatuses, refStatuses, List.mem_cons, List.not_mem_nil, or_false] at h ⊢
  tauto

theorem code_mem_published {status : RunStatus} (h : status.code ∈ allowedStatuses) :
    status.code ∈ ["succeeded", "partial"] ↔ status = .succeeded := by
  cases status <;> revert h <;> decide

/-- The reconciliation follows the row of the run, or changes nothing. -/
theorem reconciled_progress {limits : AdmissionLimits} {es : List Event}
    {failing : String → Option ServiceError} (hfail : failing ref.runId = none)
    (hrun : (reach limits es).db.runs.find? ref.runId = some run)
    (hbound : db.runRefs.find? ref.runId = some ref)
    (hfound : db.archives.find? ref.archiveId = some archive) (hactive : Active ref archive)
    (now : Time) :
    progress (reconciled (getRunState ((reach limits es).db.answer failing)) db now ref.runId)
        ref.runId ref.archiveId = some (if Follows ref archive run
      then progressOf (ref.follow now run.state) archive else progressOf ref archive) := by
  unfold reconciled reconcileRun
  rw [hbound]
  dsimp only
  rw [getRunState_run hfail hrun]
  by_cases hstatus : run.status.code ∈ allowedStatuses
  · have hsame : ¬ (run.state.runId ≠ ref.runId ∨ run.state.status ∉ refStatuses) := by
      rintro (h | h)
      · exact h (show run.runId = ref.runId from Table.key_of_find? hrun)
      · exact h (mem_refStatuses hstatus)
    have hnow : ¬ (archive.activeRunId ≠ some ref.runId ∨
        archive.generationEpoch ≠ ref.generationEpoch) := by
      rintro (h | h)
      · exact h hactive.active
      · exact h hactive.current
    rw [if_pos hstatus]
    show progress (match (if run.state.runId ≠ ref.runId ∨ run.state.status ∉ refStatuses
      then _ else _ : Result (MemoirDb × Bool)) with | .ok (db', _) => db' | .error _ => db) _ _ = _
    rw [if_neg hsame, hfound]
    dsimp only
    rw [if_neg hnow]
    show progress (reconcileTo db now ref archive run.state).1 _ _ = _
    rw [reconcileTo_progress hbound hfound]
    congr 1
    refine if_congr ?_ rfl rfl
    show (ref.eventSeq < (run.lastEventSeq : Int) ∧ ref.statusVersion ≤ (run.statusVersion : Int)) ∧
      ¬ (run.status.code ∈ ["succeeded", "partial"] ∧ _) ↔ _
    rw [code_mem_published hstatus]
    unfold Follows
    tauto
  · rw [if_neg hstatus, if_neg fun h => hstatus h.2.2.1]
    exact progress_eq hbound hfound

/-- The progress after a callback is taken. -/
def Callback.progress (c : Callback) (archive : MemoryArchive) : RunProgress :=
  ⟨statusByEvent c.event, c.eventSeq, c.statusVersion, (archive.project c).contentStatus⟩

/-- The callbacks leave what the latest of them says that is taken. -/
theorem run_progress (hbound : db.runRefs.find? ref.runId = some ref)
    (hfound : db.archives.find? ref.archiveId = some archive) (hactive : Active ref archive)
    {ds : List Delivery} (hnum : Numbered ref.runId ds) :
    progress (Runs.run deliverCallback db ds) ref.runId ref.archiveId =
      some (((Latest.offers (Takes ref archive) Callback.eventSeq none (callbacks ds)).map
        (·.progress archive)).getD (progressOf ref archive)) := by
  obtain ⟨⟨ref', hbound', _, _, hview⟩, hfound'⟩ := run_shows hbound hfound hactive ds hnum
  generalize Latest.offers (Takes ref archive) Callback.eventSeq none (callbacks ds) = latest
    at hview hfound'
  rw [progress_eq hbound' hfound']
  have hstatus : ref'.status = ((latest.map Callback.view).getD ref.view).status :=
    congrArg RunView.status hview
  have hseq : ref'.eventSeq = ((latest.map Callback.view).getD ref.view).eventSeq :=
    congrArg RunView.eventSeq hview
  have hversion : ref'.statusVersion = ((latest.map Callback.view).getD ref.view).statusVersion :=
    congrArg RunView.statusVersion hview
  unfold progressOf
  rw [hstatus, hseq, hversion]
  cases latest <;> rfl

theorem code_mem_allowed {event : RunEvent} {status : RunStatus}
    (h : statusByEvent event = status.code) (hne : status ≠ .partialSucceeded) :
    status.code ∈ allowedStatuses := by
  cases status with
  | planning => cases event <;> exact absurd h (by decide)
  | evaluating => cases event <;> exact absurd h (by decide)
  | partialSucceeded => exact absurd rfl hne
  | _ => decide

theorem event_of_succeeded {event : RunEvent} (h : statusByEvent event = RunStatus.succeeded.code) :
    event = .runSucceeded := by
  cases event with
  | runSucceeded => rfl
  | _ => exact absurd h (by decide)

/-- A callback that is taken and announces the row is followed. -/
theorem Announces.follows {c : Callback} (htakes : Takes ref archive c)
    (h : Announces c archive run) : Follows ref archive run := by
  obtain ⟨_, _, hnew, hbacked⟩ := htakes
  obtain ⟨hseq, hversion, hstatus, hne, _⟩ := h
  unfold MemoryAgentRunRef.Outdated at hnew
  refine ⟨by omega, by omega, code_mem_allowed hstatus hne, fun ⟨hsucceeded, hpublished⟩ => ?_⟩
  rw [hsucceeded] at hstatus
  refine hbacked ⟨?_, hpublished⟩
  rw [event_of_succeeded hstatus]
  exact List.mem_cons_self ..

/-- The two ways of recovery agree exactly where the run is recoverable. -/
theorem agrees_iff {limits : AdmissionLimits} {es : List Event}
    {failing : String → Option ServiceError} (hfail : failing ref.runId = none)
    (hrun : (reach limits es).db.runs.find? ref.runId = some run)
    (hbound : db.runRefs.find? ref.runId = some ref)
    (hfound : db.archives.find? ref.archiveId = some archive) (hactive : Active ref archive)
    (hlost : ∀ e ∈ lost, e ∈ eventsOf (reach limits es).db ref.runId) (now : Time) :
    progress (Runs.run deliverCallback db (deliveriesFor run times trace lost)) ref.runId
        ref.archiveId
      = progress (reconciled (getRunState ((reach limits es).db.answer failing)) db now ref.runId)
          ref.runId ref.archiveId ↔
      Recoverable ref archive run (callbacks (deliveriesFor run times trace lost)) := by
  have hstream := streamInv_reach hrun
  have hnum : Numbered ref.runId (deliveriesFor run times trace lost) :=
    numbered_deliveriesFor hstream hlost ref.runId
  have hlast : ∀ c ∈ callbacks (deliveriesFor run times trace lost),
      c.eventSeq ≤ run.lastEventSeq := by
    intro c hc
    obtain ⟨e, he, hread⟩ := mem_callbacks_deliveriesFor hc
    rw [(read_payload hread).2.2.1]
    exact Int.ofNat_le.mpr (hstream.eventSeq_le (hlost e he))
  have hinj : ∀ c ∈ callbacks (deliveriesFor run times trace lost),
      ∀ d ∈ callbacks (deliveriesFor run times trace lost), Takes ref archive c →
        Takes ref archive d → c.eventSeq = d.eventSeq → c = d :=
    fun c hc d hd htakes htakes' => (hnum c hc d hd htakes.1 htakes'.1).2
  have hlatest : Latest.IsLatest (Takes ref archive) Callback.eventSeq
      (callbacks (deliveriesFor run times trace lost)) _ := Latest.offers_latest _
  rw [run_progress hbound hfound hactive hnum,
    reconciled_progress hfail hrun hbound hfound hactive now, Option.some.injEq]
  generalize callbacks (deliveriesFor run times trace lost) = cs at hinj hlatest hlast ⊢
  cases hcase : Latest.offers (Takes ref archive) Callback.eventSeq none cs with
  | none =>
    rw [hcase] at hlatest
    have hnone : ∀ c ∈ cs, ¬ Takes ref archive c := hlatest
    show progressOf ref archive = _ ↔ _
    by_cases hfollows : Follows ref archive run
    · -- The row has moved on, though nothing that is lost would have been taken.
      rw [if_pos hfollows]
      constructor
      · intro h
        have hseq : ref.eventSeq = run.lastEventSeq := congrArg RunProgress.eventSeq h
        have hlt := hfollows.1
        omega
      · rintro (⟨_, hnot⟩ | ⟨c, hc, htakes, _⟩)
        · exact absurd hfollows hnot
        · exact absurd htakes (hnone c hc)
    · rw [if_neg hfollows]
      exact iff_of_true rfl (Or.inl ⟨hnone, hfollows⟩)
  | some c =>
    rw [hcase] at hlatest
    obtain ⟨hc, htakes, hmax⟩ := hlatest
    have hnew : ref.eventSeq < c.eventSeq := not_le.mp fun hle => htakes.2.2.1 (Or.inl hle)
    have honly : ∀ d ∈ cs, Takes ref archive d → Announces d archive run → d = c := by
      intro d hd htakes' hannounces
      refine hinj d hd c hc htakes' htakes (le_antisymm (hmax d hd htakes') ?_)
      rw [hannounces.1]
      exact hlast c hc
    show c.progress archive = _ ↔ _
    by_cases hfollows : Follows ref archive run
    · rw [if_pos hfollows]
      constructor
      · intro h
        have hne : run.status ≠ .partialSucceeded := fun hended => by
          have hallowed := hfollows.2.2.1
          rw [hended] at hallowed
          exact absurd hallowed (by decide)
        exact Or.inr ⟨c, hc, htakes, congrArg RunProgress.eventSeq h,
          congrArg RunProgress.statusVersion h, congrArg RunProgress.status h, hne,
          congrArg RunProgress.contentStatus h⟩
      · rintro (⟨hnone, _⟩ | ⟨d, hd, htakes', hannounces⟩)
        · exact absurd htakes (hnone c hc)
        · rw [honly d hd htakes' hannounces] at hannounces
          obtain ⟨hseq, hversion, hstatus, _, hcontent⟩ := hannounces
          unfold Callback.progress
          rw [hseq, hversion, hstatus, hcontent]
          rfl
    · rw [if_neg hfollows]
      refine iff_of_false (fun h => ?_) ?_
      · have hseq : c.eventSeq = ref.eventSeq := congrArg RunProgress.eventSeq h
        omega
      · rintro (⟨hnone, _⟩ | ⟨d, _, htakes', hannounces⟩)
        · exact hnone c hc htakes
        · exact hfollows (hannounces.follows htakes')

end Lost

/-! ## A pass over the references -/

section Pass

variable {getRunState : String → Result (Option RuntimeRunState)} {db db' : MemoirDb}
  {now : Time} {q : String}

/-- A reference is reconciled where its query is answered. -/
theorem reconcileRun_isOk (hbound : (db.runRefs.find? q).isSome) :
    (∃ r, reconcileRun getRunState db now q = .ok r) ↔ ∃ answer, getRunState q = .ok answer := by
  obtain ⟨ref, href⟩ := Option.isSome_iff_exists.mp hbound
  unfold reconcileRun
  rw [href]
  dsimp only
  cases hanswer : getRunState q with
  | error e => simp [bind, Except.bind]
  | ok answer =>
    refine iff_of_true ?_ ⟨answer, rfl⟩
    cases answer with
    | none => exact ⟨_, rfl⟩
    | some remote =>
      show ∃ r, (if remote.runId ≠ ref.runId ∨ remote.status ∉ refStatuses then _ else _ :
        Result (MemoirDb × Bool)) = .ok r
      split
      · exact ⟨_, rfl⟩
      · split
        · exact ⟨_, rfl⟩
        · split <;> exact ⟨_, rfl⟩

theorem isSome_put_ref (t : Table MemoryAgentRunRef.runId) (ref : MemoryAgentRunRef) (id : String) :
    ((t.put ref).find? id).isSome = (t.find? id).isSome := by
  rw [Table.find?_put]
  split
  · rw [Option.isSome_map]
  · rfl

theorem reconcileTo_refs (ref : MemoryAgentRunRef) (archive : MemoryArchive)
    (remote : RuntimeRunState) (id : String) :
    ((reconcileTo db now ref archive remote).1.runRefs.find? id).isSome
      = (db.runRefs.find? id).isSome := by
  unfold reconcileTo
  dsimp only
  split
  · exact isSome_put_ref ..
  · split
    · exact isSome_put_ref ..
    · exact isSome_put_ref ..

/-- No reference comes or goes. -/
theorem reconcileRun_refs {applied : Bool}
    (h : reconcileRun getRunState db now q = .ok (db', applied)) (id : String) :
    (db'.runRefs.find? id).isSome = (db.runRefs.find? id).isSome := by
  unfold reconcileRun at h
  split at h
  · cases h
    rfl
  · next ref _ =>
    obtain ⟨answer, _, h⟩ := bind_ok.mp h
    cases answer with
    | none =>
      cases h
      exact isSome_put_ref ..
    | some remote =>
      dsimp only at h
      split at h
      · cases h
        exact isSome_put_ref ..
      · split at h
        · cases h
          rfl
        · next archive _ =>
          split at h
          · cases h
            rfl
          · have hdb : (reconcileTo db now ref archive remote).1 = db' :=
              congrArg Prod.fst (Except.ok.inj h)
            rw [← hdb]
            exact reconcileTo_refs ref archive remote id

/-- A pass comes to all references exactly where every query but the last is
answered. -/
theorem reconcileEach_reached : ∀ {runIds : List String} {db : MemoirDb} {repaired : Nat},
    (∀ id ∈ runIds, (db.runRefs.find? id).isSome) →
      ((reconcileEach getRunState now db repaired runIds).reached = runIds ↔
        ∀ id ∈ runIds.dropLast, ∃ answer, getRunState id = .ok answer)
  | [], _, _, _ => iff_of_true rfl fun _ h => nomatch h
  | [runId], db, repaired, _ => by
    refine iff_of_true ?_ fun _ h => nomatch h
    unfold reconcileEach
    split <;> rfl
  | runId :: next :: runIds, db, repaired, hbound => by
    obtain ⟨hone, hrest⟩ := List.forall_mem_cons.mp hbound
    have hiff := @reconcileRun_isOk getRunState db now runId hone
    rw [List.dropLast_cons_cons, List.forall_mem_cons, ← hiff]
    cases hcase : reconcileRun getRunState db now runId with
    | error e =>
      refine iff_of_false (fun h => ?_) fun h => ?_
      · rw [reconcileEach, hcase] at h
        cases h
      · obtain ⟨⟨r, hr⟩, _⟩ := h
        cases hr
    | ok r =>
      obtain ⟨db', applied⟩ := r
      have hkept : ∀ id ∈ next :: runIds, (db'.runRefs.find? id).isSome := fun id hid => by
        rw [reconcileRun_refs hcase id]
        exact hrest id hid
      rw [reconcileEach, hcase]
      dsimp only
      rw [List.cons_inj_right, reconcileEach_reached hkept]
      exact ⟨fun h => ⟨⟨_, rfl⟩, h⟩, fun h => h.2⟩

end Pass

theorem pendingRefs_bound {db : MemoirDb} {limit : Nat} {id : String}
    (h : id ∈ pendingRefs db limit) : (db.runRefs.find? id).isSome := by
  obtain ⟨ref, href, rfl⟩ := List.mem_map.mp h
  have hsorted := List.mem_of_mem_take href
  rw [List.mem_insertionSort] at hsorted
  rw [Table.find?_of_mem (List.mem_filter.mp hsorted).1]
  rfl

/-- A pass comes to all references that it has selected exactly where no query
but the last raises. -/
theorem reconcilePending_reached {limits : AdmissionLimits} {es : List Event}
    {failing : String → Option ServiceError} {db : MemoirDb} {now : Time} {limit : Nat} :
    (reconcilePending (getRunState ((reach limits es).db.answer failing)) db now limit).reached
        = pendingRefs db limit ↔
      ∀ id ∈ (pendingRefs db limit).dropLast, ¬ (reach limits es).db.Refuses failing id := by
  unfold reconcilePending
  rw [reconcileEach_reached fun id hid => pendingRefs_bound hid]
  exact forall_congr' fun id => forall_congr' fun _ => getRunState_isOk

/-- After callbacks are lost, the reconciliation leaves what they would have
left exactly where the run is recoverable, and a pass comes to every reference
exactly where no query but the last raises. -/
theorem reconciliation_agrees_iff (limits : AdmissionLimits) (es : List Event)
    {db : MemoirDb} {ref : MemoryAgentRunRef} {archive : MemoryArchive} {run : AgentRun}
    (hrun : (reach limits es).db.runs.find? ref.runId = some run)
    (hbound : db.runRefs.find? ref.runId = some ref)
    (hfound : db.archives.find? ref.archiveId = some archive) (hactive : Active ref archive)
    (failing : String → Option ServiceError) (hfail : failing ref.runId = none)
    (lostFrom limit : Nat) (times : CallbackEvent → Time) (trace : CallbackEvent → Json)
    (now : Time) :
    (progress (Runs.run deliverCallback db (deliveriesFor run times trace
          ((eventsOf (reach limits es).db ref.runId).drop lostFrom))) ref.runId ref.archiveId
        = progress (reconciled (getRunState ((reach limits es).db.answer failing)) db now
            ref.runId) ref.runId ref.archiveId ∧
      (reconcilePending (getRunState ((reach limits es).db.answer failing)) db now limit).reached
        = pendingRefs db limit) ↔
    (Recoverable ref archive run (callbacks (deliveriesFor run times trace
        ((eventsOf (reach limits es).db ref.runId).drop lostFrom))) ∧
      ∀ id ∈ (pendingRefs db limit).dropLast, ¬ (reach limits es).db.Refuses failing id) :=
  and_congr (agrees_iff hfail hrun hbound hfound hactive (fun _ he => List.mem_of_mem_drop he) now)
    reconcilePending_reached

namespace LostExample

/-- A run of the archive, which a worker ends with the given status. -/
def ended (status : RunStatus) : List Event :=
  [after 0 (.register [samplePackage]),
   after 0 (.create "run-1" { sampleCommand .auto with businessId := "archive-1" } "caller" "tenant"
    1),
   after 0 (.claim "run-1" "worker-1" 90), after 1 (.finish 0 status none)]

/-- The archive, with a publication. -/
def published : MemoryArchive :=
  { CallbackExample.archive with publishedRevision := 1, contentStatus := .succeeded }

/-- A reference that waits beside that of the run. -/
def waitingRef : MemoryAgentRunRef :=
  { runId := "run-2", archiveId := "archive-2", generationEpoch := 0, updatedAt := 1 }

def db : MemoirDb :=
  { archives := ⟨[published], by decide⟩, runRefs := ⟨[CallbackExample.ref, waitingRef], by decide⟩ }

/-- What the two ways of recovery leave, and whether a pass comes to all
references, where all callbacks of the run were lost. -/
def Agrees (es : List Event) (run : AgentRun) : Prop :=
  progress (Runs.run deliverCallback db (deliveriesFor run (fun _ => 5) (fun _ => .arr [])
        (eventsOf (reach {} es).db "run-1"))) "run-1" "archive-1"
      = progress (reconciled (getRunState ((reach {} es).db.answer fun _ => none)) db 5 "run-1")
          "run-1" "archive-1" ∧
    (reconcilePending (getRunState ((reach {} es).db.answer fun _ => none)) db 5 20).reached
      = pendingRefs db 20

instance (es : List Event) (run : AgentRun) : Decidable (Agrees es run) := by
  unfold Agrees; infer_instance

end LostExample

open LostExample in
theorem reconciliation_agrees_failed :
    ∃ run ∈ (reach {} (ended .failed)).db.runs.find? "run-1", Agrees (ended .failed) run := by
  refine ⟨_, rfl, ?_⟩
  exact (@reconciliation_agrees_iff {} (ended .failed) db CallbackExample.ref published _ rfl
    (by decide) (by decide) ⟨rfl, rfl, rfl⟩ (fun _ => none) rfl 0 20 (fun _ => 5)
    (fun _ => .arr []) 5).mpr (by decide +kernel)

open LostExample in
/-- The adapter refuses the answer about a run that has succeeded in part, and
the reference behind it is not reached. -/
theorem partial_run_unreconciled :
    ∃ run ∈ (reach {} (ended .partialSucceeded)).db.runs.find? "run-1",
      ¬ Agrees (ended .partialSucceeded) run := by
  refine ⟨_, rfl, ?_⟩
  decide +kernel

end AgentRuntime
