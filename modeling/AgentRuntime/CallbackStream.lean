import AgentRuntime.NoRequeue

/-!
# Terminal statuses and the callback stream

A consumer of callbacks sees a run as a numbered stream of events. Two
things make that stream trustworthy, and both hold of every sequence of
operations from an empty database (`callback_stream`).

* *The stream.* `StreamInv`: the events of a run are numbered 1, 2, … up to
  the run's `last_event_seq`, and their status versions do not decrease.
* *The status.* `LifecycleStep`: a step leaves succeeded and cancelled
  alone, leaves failed and partial only by a retry, which counts, and a step
  that ends a run appends exactly one event, to the stream and to the
  outbox, with the status the run ended in.

The invariant behind the second is `Lifecycle`, which statuses go with which
dispatch state: it is why the reconciler and `cancel`, which test the
dispatch state only, never touch a run that has ended.
-/

namespace AgentRuntime

open Keyed Fencing Runs

/-- The statuses a run may have in each dispatch state. -/
def AgentRun.Lifecycle (run : AgentRun) : Prop :=
  match run.dispatchState with
  | .held => run.status = .pending
  | .queued => run.status = .pending ∨ run.status = .waitingHuman
  | .claimed => run.status.isTerminal = false
  | .finished => run.status.isTerminal = true ∨ run.status = .waitingHuman

variable {limits : AdmissionLimits} {now : Time} {causes : Cause → AgentRun → Prop}

theorem AgentRun.Lifecycle.finished_of_terminal {run : AgentRun} (h : run.Lifecycle)
    (ht : run.status.isTerminal = true) : run.dispatchState = .finished := by
  unfold AgentRun.Lifecycle at h
  rcases hd : run.dispatchState with _ | _ | _ | _ <;> rw [hd] at h
  · rw [show run.status = .pending from h] at ht
    cases ht
  · rcases h with hs | hs <;> rw [hs] at ht <;> cases ht
  · rw [show run.status.isTerminal = false from h] at ht
    cases ht

theorem AgentRun.Unattended.not_terminal {run : AgentRun} (h : run.Unattended)
    (hl : run.Lifecycle) : run.status.isTerminal = false := by
  unfold AgentRun.Lifecycle at hl
  rcases h with hd | hd | ⟨hs, _⟩
  · rw [hd] at hl
    rw [show run.status = .pending from hl]
    rfl
  · rw [hd] at hl
    rcases hl with hs | hs <;> rw [hs] <;> rfl
  · rw [hs]
    rfl

theorem statusAfterReap_lifecycle {status : RunStatus} (h : status.isTerminal = false) :
    AgentRun.statusAfterReap status = .pending ∨
      AgentRun.statusAfterReap status = .waitingHuman := by
  cases status <;> simp_all [AgentRun.statusAfterReap, RunStatus.isTerminal]

theorem statusAfterReap_terminal {status : RunStatus}
    (h : (AgentRun.statusAfterReap status).isTerminal = true) :
    AgentRun.statusAfterReap status = status := by
  cases status <;> simp_all [AgentRun.statusAfterReap, RunStatus.isTerminal]

/-- Every move keeps status and dispatch state in step. -/
theorem Move.lifecycle {r r' : AgentRun} {shift : Shift} {event : Option String}
    (h : Move limits now causes r r' shift event) (hl : r.Lifecycle) : r'.Lifecycle := by
  cases h with
  | start _ hs => exact Or.inl hs
  | cancelNow => exact Or.inl rfl
  | retry => exact Or.inl rfl
  | approve hs => exact Or.inr hs
  | reject => exact Or.inl rfl
  | claim hc => rcases hc.2.1 with hs | hs <;> simp [AgentRun.Lifecycle, AgentRun.claimBy, hs,
      RunStatus.isTerminal]
  | finish _ status event he => exact Or.inl (terminalCallbackEvent_ok he).1
  | pause => exact Or.inr rfl
  | reap hd =>
    unfold AgentRun.Lifecycle at hl
    rw [hd] at hl
    exact statusAfterReap_lifecycle hl
  | terminate _ status event he => exact Or.inl (terminalCallbackEvent_ok he).1
  | fallback hs => exact Or.inr hs
  | markRunning hd =>
    unfold AgentRun.Lifecycle AgentRun.markRunning
    simp [hd, RunStatus.isTerminal]
  | _ => exact hl

/-! ## Statuses -/

/-- Succeeded and cancelled are kept; failed and partial are left by a retry
only. -/
theorem Move.leaves {r r' : AgentRun} {shift : Shift} {event : Option String}
    (h : Move limits now causes r r' shift event) (hl : r.Lifecycle)
    (ht : r.status.isTerminal = true) :
    r'.status = r.status ∧ r'.manualRetryCount = r.manualRetryCount ∨
      (r.status = .failed ∨ r.status = .partialSucceeded) ∧ r.manualRetryCount < 3 ∧
        causes .retry r ∧ r' = r.retry now := by
  have hclaimed : r.dispatchState = .claimed → False := by
    intro hd
    unfold AgentRun.Lifecycle at hl
    rw [hd, ht] at hl
    cases hl
  cases h with
  | cancelNow hun => rw [hun.not_terminal hl] at ht; cases ht
  | terminate hun => rw [hun.not_terminal hl] at ht; cases ht
  | retry hs hn _ hc => exact Or.inr ⟨hs, hn, hc, rfl⟩
  | reject hs => rw [hs] at ht; cases ht
  | finish hd => exact (hclaimed hd).elim
  | pause hd => exact (hclaimed hd).elim
  | reap hd => exact (hclaimed hd).elim
  | markRunning hd => exact (hclaimed hd).elim
  | _ => exact Or.inl ⟨rfl, rfl⟩

/-- A retry counts, and nothing else does. -/
theorem Move.retryCount {r r' : AgentRun} {shift : Shift} {event : Option String}
    (h : Move limits now causes r r' shift event) :
    r'.manualRetryCount = r.manualRetryCount ∨
      (r.manualRetryCount < 3 ∧ r'.manualRetryCount = r.manualRetryCount + 1 ∧
        causes .retry r) := by
  cases h with
  | retry _ hn _ hc => exact Or.inr ⟨hn, rfl, hc⟩
  | _ => exact Or.inl rfl

/-- A move that ends the run announces the status it ends in. -/
theorem Move.announces {r r' : AgentRun} {shift : Shift} {event : Option String}
    (h : Move limits now causes r r' shift event) (hne : r'.status ≠ r.status)
    (ht : r'.status.isTerminal = true) :
    ∃ name, event = some name ∧ terminalCallbackEvent r'.status = .ok name := by
  cases h with
  | cancelNow => exact ⟨_, rfl, rfl⟩
  | reject => exact ⟨_, rfl, rfl⟩
  | finish _ status name he => exact ⟨name, rfl, he⟩
  | terminate _ status name he => exact ⟨name, rfl, he⟩
  | retry => cases ht
  | pause => cases ht
  | markRunning => cases ht
  | reap => exact absurd (statusAfterReap_terminal ht) hne
  | _ => exact absurd rfl hne

/-! ## Numbers and versions -/

theorem Move.lastEventSeq_eq {r r' : AgentRun} {shift : Shift} {event : Option String}
    (h : Move limits now causes r r' shift event) : r'.lastEventSeq = r.lastEventSeq := by
  cases h <;> rfl

theorem Move.statusVersion_le {r r' : AgentRun} {shift : Shift} {event : Option String}
    (h : Move limits now causes r r' shift event) : r.statusVersion ≤ r'.statusVersion := by
  cases h with
  | reap =>
    simp only [AgentRun.reap]
    split
    · exact Nat.le_succ _
    · exact le_refl _
  | cancelNow | retry | approve | reject | finish | pause | terminate | fallback | markRunning
  | bumpVersion => exact Nat.le_succ _
  | _ => exact le_refl _

/-- The callback stream of a run whose row is `r`. -/
structure StreamInv (r : AgentRun) (events : List CallbackEvent) : Prop where
  lifecycle : r.Lifecycle
  retries : r.manualRetryCount ≤ 3
  version_pos : 0 < r.statusVersion
  /-- Numbered 1, 2, … `last_event_seq`. -/
  numbered : events.map (·.eventSeq) = List.range' 1 r.lastEventSeq
  /-- Status versions do not decrease … -/
  versions : (events.map (·.statusVersion)).Pairwise (· ≤ ·)
  /-- … and do not run ahead of the row. -/
  versions_le : ∀ e ∈ events, e.statusVersion ≤ r.statusVersion

/-- The streams of all runs; a run that does not exist has no events. -/
def StreamsInv (s : Sys) : Prop :=
  ∀ q, match s.db.runs.find? q with
    | none => eventsOf s.db q = []
    | some r => StreamInv r (eventsOf s.db q)

theorem streamInv_newRun (q : String) (command : CreateRunCommand)
    (definition : AgentDefinition) (policy : PackagePolicy) (callerId tenantId : String)
    (av : Int) (t : Time) :
    StreamInv (newRun q command definition policy callerId tenantId av t) [] where
  lifecycle := by
    unfold AgentRun.Lifecycle newRun
    by_cases h : command.startMode = .held <;> simp [h]
  retries := Nat.zero_le _
  version_pos := Nat.one_pos
  numbered := rfl
  versions := List.Pairwise.nil
  versions_le := fun e he => absurd he List.not_mem_nil

/-- A move keeps the stream in order. -/
theorem StreamInv.move {r r' : AgentRun} {shift : Shift} {event : Option String}
    {events : List CallbackEvent} (h : StreamInv r events)
    (hmove : Move limits now causes r r' shift event) :
    StreamInv (r'.afterEvent event) (events ++ newEvents r' event) := by
  have hver := hmove.statusVersion_le
  have hlife := hmove.lifecycle h.lifecycle
  have hretries : r'.manualRetryCount ≤ 3 := by
    rcases hmove.retryCount with heq | ⟨hlt, heq, _⟩
    · exact heq ▸ h.retries
    · omega
  have hpos : 0 < r'.statusVersion := lt_of_lt_of_le h.version_pos hver
  have hold : ∀ e ∈ events, e.statusVersion ≤ r'.statusVersion :=
    fun e he => le_trans (h.versions_le e he) hver
  cases event with
  | none =>
    simp only [newEvents, List.append_nil]
    exact ⟨hlife, hretries, hpos, by rw [h.numbered, AgentRun.afterEvent,
      hmove.lastEventSeq_eq], h.versions, hold⟩
  | some name =>
    have hnew : (callbackOf r' name).statusVersion = r'.statusVersion := by
      show (if r'.statusVersion = 0 then 1 else r'.statusVersion) = _
      rw [if_neg (Nat.ne_of_gt hpos)]
    refine ⟨hlife, hretries, hpos, ?_, ?_, ?_⟩
    · show (events ++ [callbackOf r' name]).map (·.eventSeq)
        = List.range' 1 (r'.lastEventSeq + 1)
      rw [List.map_append, h.numbered, List.range'_concat, hmove.lastEventSeq_eq]
      simp [callbackOf, hmove.lastEventSeq_eq, Nat.add_comm]
    · show ((events ++ [callbackOf r' name]).map (·.statusVersion)).Pairwise (· ≤ ·)
      rw [List.map_append, List.pairwise_append]
      refine ⟨h.versions, List.pairwise_singleton _ _, fun a ha b hb => ?_⟩
      obtain ⟨e, he, rfl⟩ := List.mem_map.mp ha
      rw [List.map_singleton, List.mem_singleton] at hb
      rw [hb, hnew]
      exact hold e he
    · intro e he
      rcases List.mem_append.mp he with he | he
      · exact hold e he
      · rw [newEvents, List.mem_singleton] at he
        rw [he]
        exact le_of_eq hnew

theorem streamsInv_step (limits : AdmissionLimits) (s : Sys) (e : Event)
    (h : StreamsInv s) : StreamsInv (step limits s e) := by
  intro q
  have hq := h q
  cases step_runStep limits s e q with
  | same hs =>
    rw [hs.row, hs.events]
    exact hq
  | created hnone command definition policy callerId tenantId av hrow hevents =>
    rw [hnone] at hq
    rw [hrow, hevents, show eventsOf s.db q = [] from hq]
    exact streamInv_newRun q command definition policy callerId tenantId av _
  | moved r r' shift event hfind hmove hrow hevents =>
    rw [hfind] at hq
    rw [hrow, hevents]
    exact StreamInv.move hq hmove

/-! ## Steps -/

/-- The operation is a retry of the run `q`. -/
def RetriesRun (q : String) : Op → Prop
  | .retry _ id _ _ _ => id = q
  | _ => False

/-- What a step may do to the status of the run `q` and to its stream. -/
structure StatusStep (q : String) (op : Op) (r r' : AgentRun)
    (events events' : List CallbackEvent) (sent sent' : List OutboxPayload) : Prop where
  /-- Succeeded and cancelled are absorbing. -/
  absorbing : r.status = .succeeded ∨ r.status = .cancelled → r'.status = r.status
  /-- Failed and partial are left through a retry only … -/
  left_by_retry : r.status = .failed ∨ r.status = .partialSucceeded → r'.status ≠ r.status →
    RetriesRun q op ∧ r'.status = .pending ∧ r'.manualRetryCount = r.manualRetryCount + 1
  /-- … and the count of retries goes up only then, to three at most. -/
  counted : r'.manualRetryCount ≠ r.manualRetryCount →
    RetriesRun q op ∧ r'.manualRetryCount = r.manualRetryCount + 1 ∧ r'.manualRetryCount ≤ 3
  /-- A step that ends the run appends one event, with that status. -/
  announced : r'.status ≠ r.status → r'.status.isTerminal = true →
    ∃ e : CallbackEvent, events' = events ++ [e] ∧ e.statusInPayload = r'.status ∧
      terminalCallbackEvent r'.status = .ok e.eventType ∧
      sent' = sent ++ [.callback e.eventSeq e.eventType r'.callbackTargetId]

/-- Every run that exists takes a `StatusStep`. -/
def LifecycleStep (limits : AdmissionLimits) (s : Sys) (e : Event) : Prop :=
  ∀ q r r', s.db.runs.find? q = some r → (step limits s e).db.runs.find? q = some r' →
    StatusStep q e.op r r' (eventsOf s.db q) (eventsOf (step limits s e).db q)
      (deliveriesOf s.db q) (deliveriesOf (step limits s e).db q)

@[simp] theorem status_afterEvent (run : AgentRun) (event : Option String) :
    (run.afterEvent event).status = run.status := by
  cases event <;> rfl

@[simp] theorem manualRetryCount_afterEvent (run : AgentRun) (event : Option String) :
    (run.afterEvent event).manualRetryCount = run.manualRetryCount := by
  cases event <;> rfl

theorem causes_retry {db : Db} {op : Op} {r : AgentRun} (h : Causes db now op .retry r) :
    RetriesRun r.runId op := by
  obtain ⟨_, hc⟩ := h
  cases op with
  | retry resolver id callerId auditor expected =>
    exact (Table.key_of_find? (ownedRun_ok hc.1)).symm
  | _ => exact hc.elim

theorem statusStep_refl (q : String) (op : Op) (r : AgentRun) (events : List CallbackEvent)
    (sent : List OutboxPayload) : StatusStep q op r r events events sent sent :=
  ⟨fun _ => rfl, fun _ hne => absurd rfl hne, fun hne => absurd rfl hne,
    fun hne => absurd rfl hne⟩

theorem Move.statusStep {db : Db} {op : Op} {r r' : AgentRun} {shift : Shift}
    {event : Option String} (h : Move limits now (Causes db now op) r r' shift event)
    (hl : r.Lifecycle) (events : List CallbackEvent) (sent : List OutboxPayload) :
    StatusStep r.runId op r (r'.afterEvent event) events (events ++ newEvents r' event)
      sent (sent ++ newDeliveries r' event) where
  absorbing hs := by
    rw [status_afterEvent]
    have ht : r.status.isTerminal = true := by rcases hs with hs | hs <;> rw [hs] <;> rfl
    rcases h.leaves hl ht with hkeep | ⟨hleft, _⟩
    · exact hkeep.1
    · rcases hs with hs | hs <;> rw [hs] at hleft <;> rcases hleft with hx | hx <;> cases hx
  left_by_retry hs hne := by
    rw [status_afterEvent] at hne ⊢
    rw [manualRetryCount_afterEvent]
    have ht : r.status.isTerminal = true := by rcases hs with hs | hs <;> rw [hs] <;> rfl
    rcases h.leaves hl ht with hkeep | ⟨_, _, hc, rfl⟩
    · exact absurd hkeep.1 hne
    · exact ⟨causes_retry hc, rfl, rfl⟩
  counted hne := by
    rw [manualRetryCount_afterEvent] at hne ⊢
    rcases h.retryCount with heq | ⟨hlt, heq, hc⟩
    · exact absurd heq hne
    · exact ⟨causes_retry hc, heq, by omega⟩
  announced hne ht := by
    rw [status_afterEvent] at hne ht ⊢
    obtain ⟨name, rfl, hname⟩ := h.announces hne ht
    exact ⟨callbackOf r' name, rfl, rfl, hname, rfl⟩

theorem lifecycleStep_of_inv (limits : AdmissionLimits) (s : Sys) (e : Event)
    (h : StreamsInv s) : LifecycleStep limits s e := by
  intro q r r' hfind hfind'
  have hq := h q
  rw [hfind] at hq
  cases step_runStep limits s e q with
  | same hs =>
    rw [hs.row, hfind] at hfind'
    cases hfind'
    rw [hs.events, hs.deliveries]
    exact statusStep_refl q e.op r _ _
  | created hnone =>
    rw [hfind] at hnone
    cases hnone
  | moved r₀ r₁ shift event hfind₀ hmove hrow hevents hdeliveries =>
    rw [hfind] at hfind₀
    cases hfind₀
    rw [hrow] at hfind'
    cases hfind'
    rw [hevents, hdeliveries, ← Table.key_of_find? hfind]
    exact hmove.statusStep hq.lifecycle _ _

theorem streamsInv_init : StreamsInv {} := fun _ => rfl

/-- **Terminal status and callback stream**, for every sequence of operations
from an empty database: each step moves statuses and streams as it should,
and the streams stay numbered and ordered. -/
theorem callback_stream (limits : AdmissionLimits) (es : List Event) :
    Along (step limits) (LifecycleStep limits) {} es ∧ StreamsInv (reach limits es) :=
  ⟨along_of_inv (streamsInv_step limits) (lifecycleStep_of_inv limits) es {} streamsInv_init,
    run_inv (streamsInv_step limits) es {} streamsInv_init⟩

end AgentRuntime
