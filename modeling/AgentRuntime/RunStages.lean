import AgentRuntime.Lib.Walks
import AgentRuntime.CallbackStream
import AgentRuntime.RunWorkers

/-!
# The stages of a run

What a run goes through, as the queue sees it. A `Stage` is read off the row;
`Stage.Follows` says which stages come after which, and that is the whole life
cycle: a run is held or queued, a worker claims it, and from there it goes back
into the queue (its lease was reaped), waits for a human, or ends; what waits
is queued again or ends; what has ended is queued again by a retry.

`stages` is the walk of one run through a sequence of operations.
`run_lifecycle` says that it is a walk of that graph, that the counters of the
row count its passages, and that the columns of the row are those of the stage
it is in. As a run gets into the queue in four ways only, it is claimed at most
once more than it is reaped, resumed and retried.
-/

namespace AgentRuntime

open Keyed Fencing Runs Walks

/-- Where a run is, as the queue sees it. -/
inductive Stage
  | absent | held | queued | claimed | waiting | ended
  deriving DecidableEq, Repr

namespace Stage

/-- The next stage, or the same one. -/
def Follows (s s' : Stage) : Prop :=
  s' = s ∨
  match s, s' with
  | absent, held | absent, queued => True
  | held, queued | held, ended => True
  | queued, claimed | queued, ended => True
  | claimed, queued | claimed, waiting | claimed, ended => True
  | waiting, queued | waiting, ended => True
  | ended, queued => True
  | _, _ => False

/-- The passages the code counts, or names. -/
def claims (s s' : Stage) : Bool := decide (s = queued ∧ s' = claimed)
def retries (s s' : Stage) : Bool := decide (s = ended ∧ s' = queued)
def reaps (s s' : Stage) : Bool := decide (s = claimed ∧ s' = queued)
def resumes (s s' : Stage) : Bool := decide (s = waiting ∧ s' = queued)

/-- The first time into the queue. -/
def enqueues (s s' : Stage) : Bool := decide ((s = absent ∨ s = held) ∧ s' = queued)

/-- Not yet in the queue. -/
def early (s : Stage) : Bool := decide (s = absent ∨ s = held)

end Stage

/-- The stage a row is in. -/
def AgentRun.stage (run : AgentRun) : Stage :=
  match run.dispatchState with
  | .held => .held
  | .queued => .queued
  | .claimed => .claimed
  | .finished => if run.status = .waitingHuman then .waiting else .ended

/-- The stage of the run `q`. -/
def stageIn (q : String) (s : Sys) : Stage :=
  match s.db.runs.find? q with
  | none => .absent
  | some run => run.stage

/-- The walk of the run `q` through the operations `es`. -/
def stages (limits : AdmissionLimits) (q : String) (es : List Event) : List Stage :=
  track (stageIn q) (step limits) {} es

/-- A column of the run `q`; nothing is counted yet if there is no row. -/
def countIn (column : AgentRun → Nat) (q : String) (s : Sys) : Nat :=
  match s.db.runs.find? q with
  | none => 0
  | some run => column run

variable {limits : AdmissionLimits} {now : Time} {causes : Cause → AgentRun → Prop}

/-! ## What a move does to the stage -/

namespace AgentRun

theorem stage_finished {run : AgentRun} (hd : run.dispatchState = .finished)
    (hs : run.status ≠ .waitingHuman) : run.stage = .ended := by
  unfold stage
  rw [hd]
  exact if_neg hs

theorem stage_waiting {run : AgentRun} (hd : run.dispatchState = .finished)
    (hs : run.status = .waitingHuman) : run.stage = .waiting := by
  unfold stage
  rw [hd]
  exact if_pos hs

theorem stage_claimed {run : AgentRun} (hd : run.dispatchState = .claimed) :
    run.stage = .claimed := by
  unfold stage
  rw [hd]

theorem stage_queued {run : AgentRun} (hd : run.dispatchState = .queued) :
    run.stage = .queued := by
  unfold stage
  rw [hd]

theorem stage_held {run : AgentRun} (hd : run.dispatchState = .held) : run.stage = .held := by
  unfold stage
  rw [hd]

theorem stage_congr {run run' : AgentRun} (hd : run'.dispatchState = run.dispatchState)
    (hs : run'.status = run.status) : run'.stage = run.stage := by
  unfold stage
  rw [hd, hs]

/-- Held, queued and waiting runs are those that `cancel` ends itself. -/
theorem Unattended.stages {run : AgentRun} (h : run.Unattended) :
    run.stage = .held ∨ run.stage = .queued ∨ run.stage = .waiting := by
  rcases h with hd | hd | ⟨hs, hd⟩
  · exact .inl (stage_held hd)
  · exact .inr (.inl (stage_queued hd))
  · exact .inr (.inr (stage_waiting hd hs))

end AgentRun

theorem terminal_not_waiting {status : RunStatus} (h : status.isTerminal = true) :
    status ≠ .waitingHuman := by
  rintro rfl
  cases h

@[simp] theorem Stage.claims_self (s : Stage) : s.claims s = false := by
  cases s <;> rfl

@[simp] theorem Stage.retries_self (s : Stage) : s.retries s = false := by
  cases s <;> rfl

/-- What a move makes of a row, in the terms of its stage. -/
structure StageMove (r r' : AgentRun) : Prop where
  follows : r.stage.Follows r'.stage
  attempts : r'.executionAttempt
    = r.executionAttempt + if r.stage.claims r'.stage = true then 1 else 0
  retries : r'.manualRetryCount
    = r.manualRetryCount + if r.stage.retries r'.stage = true then 1 else 0

namespace StageMove

theorem stays {r r' : AgentRun} (hstage : r'.stage = r.stage)
    (hattempt : r'.executionAttempt = r.executionAttempt)
    (hretry : r'.manualRetryCount = r.manualRetryCount) : StageMove r r' where
  follows := .inl hstage
  attempts := by
    rw [hstage, Stage.claims_self, hattempt]
    rfl
  retries := by
    rw [hstage, Stage.retries_self, hretry]
    rfl

theorem passes {r r' : AgentRun} {s s' : Stage} (hs : r.stage = s) (hs' : r'.stage = s')
    (hfollows : s.Follows s')
    (hattempt : r'.executionAttempt = r.executionAttempt + if s.claims s' = true then 1 else 0)
    (hretry : r'.manualRetryCount = r.manualRetryCount + if s.retries s' = true then 1 else 0) :
    StageMove r r' := by
  subst hs
  subst hs'
  exact ⟨hfollows, hattempt, hretry⟩

/-- An unattended run that ends. -/
theorem ends {r r' : AgentRun} (h : r.Unattended) (hto : r'.stage = .ended)
    (hattempt : r'.executionAttempt = r.executionAttempt)
    (hretry : r'.manualRetryCount = r.manualRetryCount) : StageMove r r' := by
  rcases h.stages with hs | hs | hs <;>
    exact passes hs hto (.inr trivial) hattempt hretry

end StageMove

/-- **A move goes along an edge**, and the counters count it. -/
theorem Move.stageMove {r r' : AgentRun} {shift : Shift} {event : Option String}
    (h : Move limits now causes r r' shift event) (hl : r.Lifecycle) : StageMove r r' := by
  cases h with
  | start hd =>
    exact .passes (AgentRun.stage_held hd) (AgentRun.stage_queued rfl) (.inr trivial) rfl rfl
  | cancelNow h => exact .ends h (AgentRun.stage_finished rfl nofun) rfl rfl
  | retry hs =>
    have hterminal : r.status.isTerminal = true := by
      rcases hs with hs | hs <;> rw [hs] <;> rfl
    exact .passes (AgentRun.stage_finished (hl.finished_of_terminal hterminal)
      (terminal_not_waiting hterminal)) (AgentRun.stage_queued rfl) (.inr trivial) rfl rfl
  | approve hs hd | fallback hs hd =>
    exact .passes (AgentRun.stage_waiting hd hs) (AgentRun.stage_queued rfl) (.inr trivial) rfl rfl
  | reject hs hd =>
    exact .passes (AgentRun.stage_waiting hd hs) (AgentRun.stage_finished rfl nofun) (.inr trivial)
      rfl rfl
  | claim h =>
    exact .passes (AgentRun.stage_queued h.1) (AgentRun.stage_claimed rfl) (.inr trivial) rfl rfl
  | finish hd status event he =>
    exact .passes (AgentRun.stage_claimed hd)
      (AgentRun.stage_finished rfl (terminal_not_waiting (terminalCallbackEvent_ok he).1))
      (.inr trivial) rfl rfl
  | pause hd =>
    exact .passes (AgentRun.stage_claimed hd) (AgentRun.stage_waiting rfl rfl) (.inr trivial)
      rfl rfl
  | reap hd =>
    exact .passes (AgentRun.stage_claimed hd) (AgentRun.stage_queued rfl) (.inr trivial) rfl rfl
  | terminate h status event he =>
    exact .ends h (AgentRun.stage_finished rfl
      (terminal_not_waiting (terminalCallbackEvent_ok he).1)) rfl rfl
  | markRunning hd =>
    -- the status changes, the stage does not
    have hto : r.markRunning.stage = .claimed := AgentRun.stage_claimed hd
    exact .stays (hto.trans (AgentRun.stage_claimed hd).symm) rfl rfl
  | _ => exact .stays (AgentRun.stage_congr rfl rfl) rfl rfl

theorem StageMove.afterEvent {r r' : AgentRun} (h : StageMove r r') (event : Option String) :
    StageMove r (r'.afterEvent event) := by
  cases event with
  | none => exact h
  | some name => exact ⟨h.follows, h.attempts, h.retries⟩

/-! ## What a step does to the stage -/

theorem stageIn_of_find {q : String} {s : Sys} {run : AgentRun}
    (h : s.db.runs.find? q = some run) : stageIn q s = run.stage := by
  unfold stageIn
  rw [h]

theorem countIn_of_find (column : AgentRun → Nat) {q : String} {s : Sys} {run : AgentRun}
    (h : s.db.runs.find? q = some run) : countIn column q s = column run := by
  unfold countIn
  rw [h]

/-- One step of the walk of a run, with what the counters make of it. -/
structure StageStep (q : String) (s s' : Sys) : Prop where
  follows : (stageIn q s).Follows (stageIn q s')
  attempts : countIn (·.executionAttempt) q s' = countIn (·.executionAttempt) q s
    + if (stageIn q s).claims (stageIn q s') = true then 1 else 0
  retries : countIn (·.manualRetryCount) q s' = countIn (·.manualRetryCount) q s
    + if (stageIn q s).retries (stageIn q s') = true then 1 else 0

/-- **Every operation takes every run one step along its walk**, or leaves it
where it is. -/
theorem step_stage (limits : AdmissionLimits) (s : Sys) (e : Event) (h : StreamsInv s)
    (q : String) : StageStep q s (step limits s e) := by
  cases step_runStep limits s e q with
  | same hsame =>
    have hstage : stageIn q (step limits s e) = stageIn q s := by
      unfold stageIn
      rw [hsame.row]
    have hcount : ∀ column, countIn column q (step limits s e) = countIn column q s := by
      intro column
      unfold countIn
      rw [hsame.row]
    refine ⟨.inl hstage, ?_, ?_⟩
    · rw [hstage, hcount, Stage.claims_self]
      rfl
    · rw [hstage, hcount, Stage.retries_self]
      rfl
  | created hnone command definition policy callerId tenantId av hrow =>
    have habsent : stageIn q s = .absent := by
      unfold stageIn
      rw [hnone]
    have hcount : ∀ column, countIn column q s = 0 := by
      intro column
      unfold countIn
      rw [hnone]
    refine ⟨?_, ?_, ?_⟩
    · rw [habsent, stageIn_of_find hrow]
      unfold newRun AgentRun.stage
      by_cases hheld : command.startMode = .held
      · rw [if_pos hheld]
        exact .inr trivial
      · rw [if_neg hheld]
        exact .inr trivial
    · rw [habsent, hcount, countIn_of_find _ hrow]
      rfl
    · rw [habsent, hcount, countIn_of_find _ hrow]
      rfl
  | moved r r' shift event hfind hmove hrow =>
    have hinv := h q
    rw [hfind] at hinv
    have hstep := (hmove.stageMove hinv.lifecycle).afterEvent event
    refine ⟨?_, ?_, ?_⟩
    · rw [stageIn_of_find hfind, stageIn_of_find hrow]
      exact hstep.follows
    · rw [stageIn_of_find hfind, stageIn_of_find hrow, countIn_of_find _ hfind,
        countIn_of_find _ hrow]
      exact hstep.attempts
    · rw [stageIn_of_find hfind, stageIn_of_find hrow, countIn_of_find _ hfind,
        countIn_of_find _ hrow]
      exact hstep.retries

/-! ## The columns of a stage -/

/-- The columns of a row are those of the stage it is in: it has a lease if and
only if it is claimed, its attempts are its tokens, and the time that its stage
is measured by is there. -/
structure AgentRun.InOrder (run : AgentRun) : Prop where
  token : run.fencingToken = run.executionAttempt
  leased : run.leaseOwner.isSome = true ↔ run.dispatchState = .claimed
  expires : run.leaseExpiresAt.isSome = run.leaseOwner.isSome
  held : run.dispatchState = .held → run.heldExpiresAt.isSome = true ∧ run.executionAttempt = 0
  queued : run.dispatchState = .queued → run.queuedAt.isSome = true
  claimed : run.dispatchState = .claimed → run.claimedAt.isSome = true
  waiting : run.dispatchState = .finished → run.status = .waitingHuman →
    run.waitingExpiresAt.isSome = true

namespace AgentRun.InOrder

theorem newRun (q : String) (command : CreateRunCommand) (definition : AgentDefinition)
    (policy : PackagePolicy) (callerId tenantId : String) (av : Int) (t : Time) :
    (newRun q command definition policy callerId tenantId av t).InOrder := by
  unfold AgentRuntime.newRun
  cases hmode : command.startMode with
  | held => exact ⟨rfl, ⟨nofun, nofun⟩, rfl, fun _ => ⟨rfl, rfl⟩, nofun, nofun, nofun⟩
  | auto => exact ⟨rfl, ⟨nofun, nofun⟩, rfl, nofun, fun _ => rfl, nofun, nofun⟩

variable {r r' : AgentRun}

/-- A row that is not claimed has no lease. -/
theorem unleased (h : r.InOrder) (hd : r.dispatchState ≠ .claimed) :
    r.leaseOwner = none ∧ r.leaseExpiresAt = none := by
  have howner : r.leaseOwner = none :=
    Option.not_isSome_iff_eq_none.mp fun hsome => hd (h.leased.mp hsome)
  refine ⟨howner, Option.not_isSome_iff_eq_none.mp ?_⟩
  rw [h.expires, howner]
  nofun

/-- A move that leaves the stage and its columns. -/
theorem of_same (h : r.InOrder) (htoken : r'.fencingToken = r.fencingToken)
    (hattempt : r'.executionAttempt = r.executionAttempt)
    (hd : r'.dispatchState = r.dispatchState) (howner : r'.leaseOwner = r.leaseOwner)
    (hexpires : r'.leaseExpiresAt.isSome = r.leaseExpiresAt.isSome)
    (hheld : r'.heldExpiresAt = r.heldExpiresAt) (hqueued : r'.queuedAt = r.queuedAt)
    (hclaimed : r'.claimedAt = r.claimedAt) (hwaiting : r'.waitingExpiresAt = r.waitingExpiresAt)
    (hstatus : r'.dispatchState = .finished → r'.status = r.status) : r'.InOrder where
  token := by rw [htoken, hattempt, h.token]
  leased := by rw [howner, hd]; exact h.leased
  expires := by rw [hexpires, howner]; exact h.expires
  held := by rw [hd, hheld, hattempt]; exact h.held
  queued := by rw [hd, hqueued]; exact h.queued
  claimed := by rw [hd, hclaimed]; exact h.claimed
  waiting := by
    intro hfinished hs
    rw [hwaiting]
    rw [hstatus hfinished] at hs
    exact h.waiting (hd ▸ hfinished) hs

/-- A move into the queue, or out of it to an end. -/
theorem of_unleased (h : r.InOrder) (htoken : r'.fencingToken = r.fencingToken)
    (hattempt : r'.executionAttempt = r.executionAttempt) (howner : r'.leaseOwner = none)
    (hexpires : r'.leaseExpiresAt = none)
    (hd : r'.dispatchState = .queued ∧ r'.queuedAt.isSome = true ∨
      r'.dispatchState = .finished ∧ (r'.status = .waitingHuman → r'.waitingExpiresAt.isSome = true)) :
    r'.InOrder := by
  rcases hd with ⟨hd, hqueued⟩ | ⟨hd, hwaiting⟩
  · exact ⟨by rw [htoken, hattempt, h.token], by rw [howner, hd]; exact ⟨nofun, nofun⟩,
      by rw [hexpires, howner]; rfl, by rw [hd]; nofun, fun _ => hqueued, by rw [hd]; nofun,
      by rw [hd]; nofun⟩
  · exact ⟨by rw [htoken, hattempt, h.token], by rw [howner, hd]; exact ⟨nofun, nofun⟩,
      by rw [hexpires, howner]; rfl, by rw [hd]; nofun, by rw [hd]; nofun, by rw [hd]; nofun,
      fun _ => hwaiting⟩

end AgentRun.InOrder

/-- **Every move keeps the columns in order.** -/
theorem Move.inOrder {r r' : AgentRun} {shift : Shift} {event : Option String}
    (h : Move limits now causes r r' shift event) (ho : r.InOrder) (hl : r.Lifecycle) :
    r'.InOrder := by
  have hidle : r.Unattended → r.dispatchState ≠ .claimed := by
    rintro (hd | hd | ⟨_, hd⟩) <;> rw [hd] <;> nofun
  cases h with
  | start hd =>
    obtain ⟨howner, hexpires⟩ := ho.unleased (by rw [hd]; nofun)
    exact ho.of_unleased rfl rfl howner hexpires (.inl ⟨rfl, rfl⟩)
  | cancelNow h =>
    obtain ⟨howner, hexpires⟩ := ho.unleased (hidle h)
    exact ho.of_unleased rfl rfl howner hexpires (.inr ⟨rfl, nofun⟩)
  | retry hs =>
    have hterminal : r.status.isTerminal = true := by
      rcases hs with hs | hs <;> rw [hs] <;> rfl
    obtain ⟨howner, hexpires⟩ := ho.unleased (by
      rw [hl.finished_of_terminal hterminal]
      nofun)
    exact ho.of_unleased rfl rfl howner hexpires (.inl ⟨rfl, rfl⟩)
  | approve _ hd | fallback _ hd =>
    obtain ⟨howner, hexpires⟩ := ho.unleased (by rw [hd]; nofun)
    exact ho.of_unleased rfl rfl howner hexpires (.inl ⟨rfl, rfl⟩)
  | reject _ hd =>
    obtain ⟨howner, hexpires⟩ := ho.unleased (by rw [hd]; nofun)
    exact ho.of_unleased rfl rfl howner hexpires (.inr ⟨rfl, nofun⟩)
  | claim h =>
    refine ⟨?_, ⟨fun _ => rfl, fun _ => rfl⟩, rfl, nofun, nofun, fun _ => rfl, nofun⟩
    show r.fencingToken + 1 = r.executionAttempt + 1
    rw [ho.token]
  | renew hd | drain hd =>
    have hlease : r.leaseExpiresAt.isSome = true := by
      rw [ho.expires]
      exact ho.leased.mpr hd
    exact ho.of_same rfl rfl rfl rfl hlease.symm rfl rfl rfl rfl fun _ => rfl
  | finish _ status event he =>
    exact ho.of_unleased rfl rfl rfl rfl
      (.inr ⟨rfl, fun hs => absurd hs (terminal_not_waiting (terminalCallbackEvent_ok he).1)⟩)
  | pause => exact ho.of_unleased rfl rfl rfl rfl (.inr ⟨rfl, fun _ => rfl⟩)
  | reap => exact ho.of_unleased rfl rfl rfl rfl (.inl ⟨rfl, rfl⟩)
  | terminate h status event he =>
    obtain ⟨howner, hexpires⟩ := ho.unleased (hidle h)
    exact ho.of_unleased rfl rfl howner hexpires
      (.inr ⟨rfl, fun hs => absurd hs (terminal_not_waiting (terminalCallbackEvent_ok he).1)⟩)
  | markRunning hd =>
    refine ho.of_same rfl rfl rfl rfl rfl rfl rfl rfl rfl fun hfinished => ?_
    have hd' : r.dispatchState = .finished := hfinished
    rw [hd] at hd'
    cases hd'
  | _ => exact ho.of_same rfl rfl rfl rfl rfl rfl rfl rfl rfl fun _ => rfl

/-- Every row is in order, and is what its stream says. -/
structure RowsInOrder (s : Sys) : Prop where
  streams : StreamsInv s
  rows : ∀ q run, s.db.runs.find? q = some run → run.InOrder

theorem RowsInOrder.step (limits : AdmissionLimits) (s : Sys) (e : Event) (h : RowsInOrder s) :
    RowsInOrder (step limits s e) := by
  refine ⟨streamsInv_step limits s e h.streams, fun q run hfind => ?_⟩
  cases step_runStep limits s e q with
  | same hsame => exact h.rows q run (hsame.row ▸ hfind)
  | created _ command definition policy callerId tenantId av hrow =>
    rw [hrow] at hfind
    cases hfind
    exact .newRun q command definition policy callerId tenantId av _
  | moved r r' shift event hfind' hmove hrow =>
    rw [hrow] at hfind
    cases hfind
    have hinv := h.streams q
    rw [hfind'] at hinv
    have ho := hmove.inOrder (h.rows q r hfind') hinv.lifecycle
    cases event with
    | none => exact ho
    | some name => exact ho.of_same rfl rfl rfl rfl rfl rfl rfl rfl rfl fun _ => rfl

/-! ## The life cycle -/

/-- No stage goes back to where a run is not queued yet. -/
theorem Stage.Follows.early {s s' : Stage} (h : s.Follows s') (hs : s.early = false) :
    s'.early = false := by
  rcases h with rfl | h
  · exact hs
  · cases s <;> cases s' <;> first | rfl | exact False.elim h | cases hs

/-- What gets into the queue comes from one of four sides. -/
theorem Stage.into_queued (s s' : Stage) :
    Walks.into .queued s s'
      = (s.enqueues s' || (s.reaps s' || (s.resumes s' || s.retries s'))) := by
  cases s <;> cases s' <;> rfl

/-- A claim takes a run out of the queue. -/
theorem Stage.outOf_queued {s s' : Stage} (h : s.claims s' = true) :
    Walks.outOf .queued s s' = true := by
  obtain ⟨rfl, rfl⟩ := of_decide_eq_true h
  rfl

/-- The kinds of passages into the queue exclude each other. -/
theorem Stage.kinds_apart (s s' : Stage) :
    (s.enqueues s' = true → (s.reaps s' || (s.resumes s' || s.retries s')) = false) ∧
      (s.reaps s' = true → (s.resumes s' || s.retries s') = false) ∧
      (s.resumes s' = true → s.retries s' = false) := by
  cases s <;> exact ⟨by simp [enqueues, reaps, resumes, retries],
    by simp [reaps, resumes, retries], by simp [resumes, retries]⟩

/-- A walk is claimed at most as often as it got into the queue. -/
theorem Walk.claims_le {xs : List Stage} {here : Stage}
    (h : Walk Stage.Follows (.absent :: xs)) (hhere : (Stage.absent :: xs).getLast? = some here) :
    steps Stage.claims (.absent :: xs) + (if here = .queued then 1 else 0)
      ≤ 1 + steps Stage.reaps (.absent :: xs) + steps Stage.resumes (.absent :: xs)
        + steps Stage.retries (.absent :: xs) := by
  have hflow := enters_leaves Stage.queued .absent xs
  have hout : steps Stage.claims (.absent :: xs) ≤ steps (outOf Stage.queued) (.absent :: xs) :=
    steps_mono (fun _ _ hs => Stage.outOf_queued hs) _
  have hin : steps (into Stage.queued) (.absent :: xs)
      = steps Stage.enqueues (.absent :: xs) + (steps Stage.reaps (.absent :: xs)
        + (steps Stage.resumes (.absent :: xs) + steps Stage.retries (.absent :: xs))) := by
    rw [steps_or (fun s s' => (Stage.kinds_apart s s').1) Stage.into_queued,
      steps_or (fun s s' => (Stage.kinds_apart s s').2.1) (fun _ _ => rfl),
      steps_or (fun s s' => (Stage.kinds_apart s s').2.2) (fun _ _ => rfl)]
  have hfirst : steps Stage.enqueues (.absent :: xs) ≤ 1 := by
    refine steps_le_one (S := Stage.early) (fun s s' hs hearly => hs.early hearly) ?_ h
    intro s s' hs
    obtain ⟨hfrom, rfl⟩ := of_decide_eq_true hs
    exact ⟨decide_eq_true hfrom, rfl⟩
  rw [if_neg (by nofun), hhere] at hflow
  have hlast : (if some here = some Stage.queued then 1 else 0)
      = (if here = .queued then 1 else 0) := by
    simp
  omega

/-- What a run has been through. -/
structure LivedThrough (trail : List Stage) (run : AgentRun) : Prop where
  walk : Walk Stage.Follows trail
  here : trail.getLast? = some run.stage
  order : run.InOrder
  attempts : run.executionAttempt = steps Stage.claims trail
  retries : run.manualRetryCount = steps Stage.retries trail
  retries_le : run.manualRetryCount ≤ 3
  /-- A claim takes a run out of the queue, and it got there first from its
  creation, then by being reaped, resumed or retried. -/
  claimed_le : run.executionAttempt + (if run.stage = .queued then 1 else 0)
    ≤ 1 + steps Stage.reaps trail + steps Stage.resumes trail + run.manualRetryCount

/-- **The life cycle of a run.** Whatever operations are performed in whatever
order, each run walks along the edges of its life cycle, its columns are those
of the stage it is in, its counters count what it went through, and it is
claimed at most once more than it is reaped, resumed and retried. -/
theorem run_lifecycle (limits : AdmissionLimits) (es : List Event) (q : String) (r : AgentRun)
    (hfind : (reach limits es).db.runs.find? q = some r) :
    LivedThrough (stages limits q es) r := by
  have hinit : RowsInOrder {} := ⟨streamsInv_init, fun q run hfind => by cases hfind⟩
  have hstep : ∀ s e, RowsInOrder s → StageStep q s (step limits s e) :=
    fun s e h => step_stage limits s e h.streams q
  have hinv : RowsInOrder (reach limits es) := run_inv (RowsInOrder.step limits) es {} hinit
  have hwalk : Walk Stage.Follows (stages limits q es) :=
    walk_track (RowsInOrder.step limits) (fun s e h => (hstep s e h).follows) es {} hinit
  have hrun : ∀ column, countIn column q (run (step limits) {} es) = column r :=
    fun column => countIn_of_find column hfind
  have hattempts := counts_steps (m := countIn (·.executionAttempt) q) (RowsInOrder.step limits)
    (fun s e h => (hstep s e h).attempts) es {} hinit
  have hretries := counts_steps (m := countIn (·.manualRetryCount) q) (RowsInOrder.step limits)
    (fun s e h => (hstep s e h).retries) es {} hinit
  have hstart : ∀ column, countIn column q {} = 0 := fun _ => rfl
  rw [hrun, hstart, Nat.zero_add] at hattempts hretries
  have hstream := hinv.streams q
  rw [hfind] at hstream
  have hhere : (stages limits q es).getLast? = some r.stage := by
    have hend : stageIn q (run (step limits) {} es) = r.stage := stageIn_of_find hfind
    rw [← hend]
    exact @getLast?_track _ _ _ (stageIn q) (step limits) {} es
  refine ⟨hwalk, hhere, hinv.rows q r hfind, hattempts, hretries, hstream.retries, ?_⟩
  rw [hattempts, hretries]
  obtain ⟨xs, hxs⟩ := track_eq_cons (stageIn q) (step limits) {} es
  have hcons : stages limits q es = .absent :: xs := hxs
  rw [hcons] at hwalk hhere
  show steps Stage.claims (stages limits q es) + _ ≤ _ + steps Stage.retries (stages limits q es)
  rw [hcons]
  exact Walk.claims_le hwalk hhere

/-- The first worker dies, the second one gives the run back, it ends, and it
is retried. -/
def retriedRun : List Event :=
  claimedRun ++ [after 91 .reapExpired, after 0 (.claim "run-1" "worker-2" 90),
    after 1 (.write 1 (.saveCheckpoint "attempt:2:step:0" {})),
    after 1 (.finish 1 .failed (some "TOOL_FAILED")),
    after 1 (.retry none "run-1" "caller" false none)]

/-- It has been claimed twice, and is in the queue for the third time. -/
theorem retried_lifecycle :
    stages {} "run-1" retriedRun
        = [.absent, .absent, .queued, .claimed, .queued, .claimed, .claimed, .ended, .queued] ∧
      ∃ r, (reach {} retriedRun).db.runs.find? "run-1" = some r ∧
        LivedThrough (stages {} "run-1" retriedRun) r :=
  have hsome : ((reach {} retriedRun).db.runs.find? "run-1").isSome = true := by decide +kernel
  ⟨by decide +kernel, _, (Option.some_get hsome).symm,
    run_lifecycle {} retriedRun "run-1" _ (Option.some_get hsome).symm⟩

end AgentRuntime
