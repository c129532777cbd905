import AgentRuntime.Recovery

/-!
# Who is at work on a run

A claim counts the attempts of its run up together with the fencing token, so
the number of an attempt tells its context (`Numbers.place_inj`). `Manned` says
that every worker holds the context it began with and no two hold one, so that
run and attempt tell the worker. What a worker saves is then saved under the
newest attempt of its run: `visits_saves`.
-/

namespace AgentRuntime

open Keyed Runs Fencing

variable {limits : AdmissionLimits} {now : Time} {causes : Cause → AgentRun → Prop}

/-! ## The numbers of the attempts -/

theorem Move.counts {r r' : AgentRun} {shift : Shift} {event : Option String}
    (h : Move limits now causes r r' shift event) :
    (r'.executionAttempt = r.executionAttempt ∧ r'.fencingToken = r.fencingToken) ∨
    (r'.executionAttempt = r.executionAttempt + 1 ∧ r'.fencingToken = r.fencingToken + 1) := by
  cases h with
  | claim => exact .inr ⟨rfl, rfl⟩
  | _ => exact .inl ⟨rfl, rfl⟩

theorem counts_afterEvent (run : AgentRun) (event : Option String) :
    (run.afterEvent event).executionAttempt = run.executionAttempt ∧
      (run.afterEvent event).fencingToken = run.fencingToken := by
  cases event with
  | none => exact ⟨rfl, rfl⟩
  | some name => exact ⟨rfl, rfl⟩

/-- Rows and contexts count the attempts as they count the tokens. -/
structure Numbers (s : Sys) : Prop where
  issued : IssuedInv s
  rows : ∀ q run, s.db.runs.find? q = some run → run.executionAttempt = run.fencingToken
  contexts : ∀ held ∈ s.issued, held.ctx.executionAttempt = held.ctx.fencingToken

/-- No context gets another number, and no run a smaller one. -/
structure Advances (s s' : Sys) : Prop where
  contexts : ∀ (i : Nat) held, s.issued[i]? = some held → ∃ held', s'.issued[i]? = some held' ∧
    held'.runId = held.runId ∧ held'.ctx.executionAttempt = held.ctx.executionAttempt
  owners : ∀ (i : Nat) held held', s.issued[i]? = some held → s'.issued[i]? = some held' →
    held'.ctx.leaseOwner = held.ctx.leaseOwner
  rows : ∀ q run, s.db.runs.find? q = some run → ∃ run', s'.db.runs.find? q = some run' ∧
    run.executionAttempt ≤ run'.executionAttempt
  clock : s.clock ≤ s'.clock

theorem Advances.refl (s : Sys) : Advances s s := by
  refine ⟨fun _ held h => ⟨held, h, rfl, rfl⟩, fun i held held' h h' => ?_,
    fun _ run h => ⟨run, h, Nat.le_refl _⟩, Nat.le_refl _⟩
  rw [h] at h'
  cases h'
  rfl

theorem Advances.trans {s s' s'' : Sys} (h : Advances s s') (h' : Advances s' s'') :
    Advances s s'' := by
  refine ⟨fun i held hi => ?_, fun i held held'' hi hi'' => ?_, fun q run hq => ?_,
    Nat.le_trans h.clock h'.clock⟩
  · obtain ⟨held', hi', hid, hattempt⟩ := h.contexts i held hi
    obtain ⟨held'', hi'', hid', hattempt'⟩ := h'.contexts i held' hi'
    exact ⟨held'', hi'', hid'.trans hid, hattempt'.trans hattempt⟩
  · obtain ⟨held', hi', _⟩ := h.contexts i held hi
    exact (h'.owners i held' held'' hi' hi'').trans (h.owners i held held' hi hi')
  · obtain ⟨run', hq', hle⟩ := h.rows q run hq
    obtain ⟨run'', hq'', hle'⟩ := h'.rows q run' hq'
    exact ⟨run'', hq'', Nat.le_trans hle hle'⟩

/-- What a step makes of a row. -/
theorem step_counts (limits : AdmissionLimits) (s : Sys) (e : Event) {q : String} {run : AgentRun}
    (hfind : s.db.runs.find? q = some run) :
    ∃ run', (step limits s e).db.runs.find? q = some run' ∧
      ((run'.executionAttempt = run.executionAttempt ∧ run'.fencingToken = run.fencingToken) ∨
        (run'.executionAttempt = run.executionAttempt + 1 ∧
          run'.fencingToken = run.fencingToken + 1)) := by
  cases step_runStep limits s e q with
  | same h => exact ⟨run, h.row.trans hfind, .inl ⟨rfl, rfl⟩⟩
  | created hnone =>
    rw [hfind] at hnone
    cases hnone
  | moved r r' shift event hfind' hmove hrow =>
    rw [hfind] at hfind'
    cases hfind'
    obtain ⟨hattempt, htoken⟩ := counts_afterEvent r' event
    refine ⟨r'.afterEvent event, hrow, ?_⟩
    rw [hattempt, htoken]
    exact hmove.counts

/-- A step leaves the contexts as they are, but for the ends of their leases. -/
theorem step_contexts (limits : AdmissionLimits) (s : Sys) (e : Event) {i : Nat} {held : Issued}
    (hi : s.issued[i]? = some held) : ∃ held', (step limits s e).issued[i]? = some held' ∧
      held'.runId = held.runId ∧ held'.ctx.executionAttempt = held.ctx.executionAttempt ∧
      held'.ctx.leaseOwner = held.ctx.leaseOwner := by
  rcases step_cases limits s e with ⟨db, issued, hok, hs⟩ | hs
  · rw [hs]
    show ∃ held', issued[i]? = some held' ∧ _
    obtain ⟨hlt, _⟩ := List.getElem?_eq_some_iff.mp hi
    rcases perform_issued hok with rfl | ⟨j, held', t, hj, rfl⟩ | ⟨_, _, held', _, _, _, _, _, rfl⟩
    · exact ⟨held, hi, rfl, rfl, rfl⟩
    · -- a heartbeat moves the end of the lease only
      by_cases hij : j = i
      · subst hij
        rw [hi] at hj
        cases hj
        exact ⟨_, List.getElem?_set_self hlt, rfl, rfl, rfl⟩
      · exact ⟨held, by rw [List.getElem?_set_ne hij]; exact hi, rfl, rfl, rfl⟩
    · exact ⟨held, by rw [List.getElem?_append_left hlt]; exact hi, rfl, rfl, rfl⟩
  · rw [hs]
    exact ⟨held, hi, rfl, rfl, rfl⟩

theorem advances_step (limits : AdmissionLimits) (s : Sys) (e : Event) :
    Advances s (step limits s e) := by
  refine ⟨fun i held hi => ?_, fun i held held' hi hi' => ?_, fun q run hq => ?_, by simp⟩
  · obtain ⟨held', hi', hid, hattempt, _⟩ := step_contexts limits s e hi
    exact ⟨held', hi', hid, hattempt⟩
  · obtain ⟨held'', hi'', _, _, howner⟩ := step_contexts limits s e hi
    rw [hi'] at hi''
    cases hi''
    exact howner
  · obtain ⟨run', hfind, hcounts⟩ := step_counts limits s e hq
    exact ⟨run', hfind, by omega⟩

theorem numbers_step (limits : AdmissionLimits) (s : Sys) (e : Event) (h : Numbers s) :
    Numbers (step limits s e) := by
  refine ⟨issuedInv_step limits s e h.issued, fun q run hq => ?_, ?_⟩
  · cases step_runStep limits s e q with
    | same hsame => exact h.rows q run (hsame.row.symm.trans hq)
    | created _ _ _ _ _ _ _ hrow =>
      rw [hrow] at hq
      cases hq
      rfl
    | moved r r' shift event hfind _ _ =>
      obtain ⟨run', hfind', hcounts⟩ := step_counts limits s e hfind
      rw [hq] at hfind'
      cases hfind'
      have hrow := h.rows q r hfind
      omega
  · rcases step_cases limits s e with ⟨db, issued, hok, hs⟩ | hs
    · rw [hs]
      show ∀ held ∈ issued, _
      rcases perform_issued hok with rfl | ⟨j, held', t, hj, rfl⟩ |
        ⟨run, _, held', hfind, _, _, htoken, hattempt, rfl⟩
      · exact h.contexts
      · intro held hheld
        rcases List.mem_or_eq_of_mem_set hheld with hold | rfl
        · exact h.contexts held hold
        · exact h.contexts held' (List.mem_of_getElem? hj)
      · intro held hheld
        rcases List.mem_append.mp hheld with hold | hnew
        · exact h.contexts held hold
        · rw [List.mem_singleton.mp hnew, htoken, hattempt, h.rows _ _ hfind]
    · rw [hs]
      exact h.contexts

/-- The number of an attempt tells its context. -/
theorem Numbers.place_inj {s : Sys} (h : Numbers s) {i j : Nat} {a b : Issued}
    (hi : s.issued[i]? = some a) (hj : s.issued[j]? = some b) (hrun : a.runId = b.runId)
    (hattempt : a.ctx.executionAttempt = b.ctx.executionAttempt) : i = j := by
  have ha := h.contexts a (List.mem_of_getElem? hi)
  have hb := h.contexts b (List.mem_of_getElem? hj)
  rcases Nat.lt_trichotomy i j with hlt | heq | hgt
  · have hlt' := h.issued.lt_of_lt hi hj hlt hrun.symm
    omega
  · exact heq
  · have hlt' := h.issued.lt_of_lt hj hi hgt hrun
    omega

/-- No context is of an attempt that its run has not come to. -/
theorem Numbers.attempt_le {s : Sys} (h : Numbers s) {i : Nat} {held : Issued} {run : AgentRun}
    (hi : s.issued[i]? = some held) (hfind : s.db.runs.find? held.runId = some run) :
    held.ctx.executionAttempt ≤ run.executionAttempt := by
  have hmem := List.mem_of_getElem? hi
  have htoken := h.issued.le_row (held.runId, held.ctx.fencingToken)
    (List.mem_map.mpr ⟨held, hmem, rfl⟩)
  unfold fenceOf at htoken
  rw [hfind] at htoken
  change held.ctx.fencingToken ≤ run.fencingToken at htoken
  have hrow := h.rows _ _ hfind
  have hctx := h.contexts held hmem
  omega

/-! ## Who holds a run -/

/-- The holder of the `i`-th context owns its run, and is at its attempt. -/
def HasRun (s : Sys) (i : Nat) : Prop :=
  ∃ held run, s.issued[i]? = some held ∧ s.db.runs.find? held.runId = some run ∧
    run.OwnedBy held.ctx ∧ run.executionAttempt = held.ctx.executionAttempt

/-- A move that is no claim leaves a row to its owner, if at all. -/
theorem Move.owned_before {r r' : AgentRun} {shift : Shift} {event : Option String}
    {ctx : LeaseContext} (h : Move limits now causes r r' shift event) (howned : r'.OwnedBy ctx)
    (hle : ctx.fencingToken ≤ r.fencingToken) :
    r.OwnedBy ctx ∧ r'.executionAttempt = r.executionAttempt := by
  cases h with
  | claim =>
    -- the token of the row is a new one
    have htoken : r.fencingToken + 1 = ctx.fencingToken := howned.2.2
    omega
  | start | cancelNow | retry | approve | reject | finish | pause | reap | terminate | fallback =>
    exact absurd howned.1 (by simp [AgentRun.start, AgentRun.cancelNow, AgentRun.retry,
      AgentRun.decideQueued, AgentRun.rejectFailed, AgentRun.endWith, AgentRun.pauseUntil,
      AgentRun.reap, AgentRun.terminate, AgentRun.requeueFallback])
  | _ => exact ⟨howned, rfl⟩

/-- **Who holds a run after a step** has held it before: a context that is lost
is not found again. -/
theorem holds_before (limits : AdmissionLimits) {s : Sys} (e : Event) (h : Numbers s) {i : Nat}
    (hlt : i < s.issued.length) (hafter : HasRun (step limits s e) i) : HasRun s i := by
  obtain ⟨held', run', hi', hfind', howned, hattempt⟩ := hafter
  obtain ⟨held, hi⟩ : ∃ held, s.issued[i]? = some held := ⟨_, List.getElem?_eq_getElem hlt⟩
  obtain ⟨held'', hi'', hid, hnumber, howner⟩ := step_contexts limits s e hi
  rw [hi'] at hi''
  cases hi''
  have htoken : held'.ctx.fencingToken = held.ctx.fencingToken := by
    have hbefore := h.contexts held (List.mem_of_getElem? hi)
    have hafter := (numbers_step limits s e h).contexts held' (List.mem_of_getElem? hi')
    omega
  have howned' : run'.OwnedBy held.ctx := by
    unfold AgentRun.OwnedBy at howned ⊢
    rw [← howner, ← htoken]
    exact howned
  rw [hnumber] at hattempt
  rw [hid] at hfind'
  cases step_runStep limits s e held.runId with
  | same hsame => exact ⟨held, run', hi, hsame.row.symm.trans hfind', howned', hattempt⟩
  | created _ _ _ _ _ _ _ hrow =>
    -- a new run is held by nobody
    rw [hrow] at hfind'
    cases hfind'
    have hclaimed := howned'.1
    simp only [newRun] at hclaimed
    split at hclaimed
    · cases hclaimed
    · cases hclaimed
  | moved r r' shift event hfind hmove hrow =>
    rw [hrow] at hfind'
    cases hfind'
    have howned'' : r'.OwnedBy held.ctx := by
      cases event with
      | none => exact howned'
      | some name => exact howned'
    obtain ⟨hattempt', _⟩ := counts_afterEvent r' event
    have hle : held.ctx.fencingToken ≤ r.fencingToken := by
      have hctx := h.contexts held (List.mem_of_getElem? hi)
      have hrow := h.rows _ _ hfind
      have hbound := h.attempt_le hi hfind
      omega
    obtain ⟨hold, hsame⟩ := hmove.owned_before howned'' hle
    refine ⟨held, r, hi, hfind, hold, ?_⟩
    rw [← hsame, ← hattempt']
    exact hattempt

/-! ## The rows that are done -/

/-- A row of the run says that the node is done. -/
def NodeDone (db : Db) (runId nodeId : String) : Prop :=
  ∃ step ∈ db.steps, step.runId = runId ∧ step.stepName = nodeId ∧ step.Done

/-- A write that changes no row that is there. -/
def AddsRows : ExecWrite → Prop
  | .setStep _ _ _ => False
  | .autoRetry _ => False
  | _ => True

theorem OfNode.addsRows {runId name : String} {w : ExecWrite} (h : OfNode runId name w) :
    AddsRows w := by
  cases w with
  | setStep => exact h
  | autoRetry => exact h
  | _ => trivial

/-- The contexts and the rows go on, a node that is done stays done, and who
holds a run has held it. -/
structure WorkKept (s s' : Sys) : Prop where
  numbers : Numbers s → Numbers s'
  advances : Advances s s'
  plans : ∀ q plan, s.db.plan? q = some plan → s'.db.plan? q = some plan
  rows : ∀ q nodeId, NodeDone s.db q nodeId → NodeDone s'.db q nodeId
  holds : Numbers s → ∀ i < s.issued.length, HasRun s' i → HasRun s i

theorem WorkKept.refl (s : Sys) : WorkKept s s :=
  ⟨id, .refl s, fun _ _ h => h, fun _ _ h => h, fun _ _ _ h => h⟩

theorem WorkKept.trans {s s' s'' : Sys} (h : WorkKept s s') (h' : WorkKept s' s'') :
    WorkKept s s'' := by
  refine ⟨fun hn => h'.numbers (h.numbers hn), h.advances.trans h'.advances,
    fun q plan hp => h'.plans q plan (h.plans q plan hp),
    fun q nodeId hd => h'.rows q nodeId (h.rows q nodeId hd), fun hn i hlt hafter => ?_⟩
  obtain ⟨held', hi', _⟩ := h.advances.contexts i _ (List.getElem?_eq_getElem hlt)
  have hlt' : i < s'.issued.length := (List.getElem?_eq_some_iff.mp hi').1
  exact h.holds hn i hlt (h'.holds (h.numbers hn) i hlt' hafter)

/-- Rows that are kept up to their summaries are done as they were. -/
theorem StepsKept.nodeDone {db db' : Db} (h : StepsKept db db') {q nodeId : String}
    (hdone : NodeDone db q nodeId) : NodeDone db' q nodeId := by
  obtain ⟨row, hrow, hid, hname, hstatus⟩ := hdone
  have hmem : row.wiped ∈ db.steps.map AgentStep.wiped := List.mem_map_of_mem hrow
  rw [← h.steps] at hmem
  obtain ⟨row', hrow', hwiped⟩ := List.mem_map.mp hmem
  refine ⟨row', hrow', ?_, ?_, ?_⟩
  · exact (congrArg AgentStep.runId hwiped).trans hid
  · exact (congrArg AgentStep.stepName hwiped).trans hname
  · have hsame : row'.wiped.status = row.wiped.status := congrArg AgentStep.status hwiped
    change row'.status = row.status at hsame
    unfold AgentStep.Done at hstatus ⊢
    rw [hsame]
    exact hstatus

theorem workKept_step (limits : AdmissionLimits) (s : Sys) {e : Event}
    (hadds : ∀ i w, e.op = .write i w → AddsRows w) : WorkKept s (step limits s e) := by
  have htables : (∀ q plan, s.db.plan? q = some plan → (step limits s e).db.plan? q = some plan) ∧
      ∀ q nodeId, NodeDone s.db q nodeId → NodeDone (step limits s e).db q nodeId := by
    rcases step_cases limits s e with ⟨db, issued, hok, hs⟩ | hs
    · rw [hs]
      cases hwrite : e.op.isWrite with
      | false =>
        have hkept := perform_steps hwrite hok
        exact ⟨fun _ _ => hkept.plan?, fun _ _ => hkept.nodeDone⟩
      | true =>
        cases hop : e.op with
        | write i w =>
          rw [hop] at hok
          obtain ⟨hplans, hsteps⟩ := write_steps hok
          refine ⟨fun q plan h => (Fleet.plan?_of_plans hplans q).trans h, ?_⟩
          rintro q nodeId ⟨row, hrow, hdone⟩
          rcases hsteps with hsame | ⟨_, _, hadded⟩ | ⟨_, _, _, rfl⟩ | ⟨_, rfl⟩
          · exact ⟨row, hsame ▸ hrow, hdone⟩
          · exact ⟨row, hadded ▸ List.mem_append_left _ hrow, hdone⟩
          · exact (hadds i _ hop).elim
          · exact (hadds i _ hop).elim
        | _ =>
          rw [hop] at hwrite
          cases hwrite
    · rw [hs]
      exact ⟨fun _ _ h => h, fun _ _ h => h⟩
  exact ⟨numbers_step limits s e, advances_step limits s e, htables.1, htables.2,
    fun h _ hlt => holds_before limits e h hlt⟩

/-! ## The writes of a worker -/

/-- What a write does to the checkpoints; only the holder of the newest attempt
saves. -/
theorem write_checkpoints {db db' : Db} {issued issued' : List Issued} {i : Nat} {w : ExecWrite}
    (h : perform limits db now issued (.write i w) = .ok (db', issued')) :
    db'.checkpoints = db.checkpoints ∨
    (w = .purgeCheckpoints ∧ ∃ keep : String → Bool,
      db'.checkpoints = db.checkpoints.filter fun c => keep c.runId) ∨
    ∃ key state held run, w = .saveCheckpoint key state ∧ issued[i]? = some held ∧
      db.runs.find? held.runId = some run ∧ run.OwnedBy held.ctx ∧
      run.executionAttempt = held.ctx.executionAttempt ∧ db'.checkpoints = (saveCheckpoint db now run held.ctx key state).checkpoints := by
  rcases withContext_ok h with ⟨rfl, _⟩ | ⟨held, hi, h⟩
  · exact .inl rfl
  split at h
  · cases h
    exact .inl rfl
  next run hfind =>
  split at h
  next howned =>
    obtain ⟨db₁, hok, h⟩ := bind_ok.mp h
    cases h
    show db₁.checkpoints = db.checkpoints ∨ _
    cases w with
    | addStep step =>
      simp only [execWrite] at hok
      split at hok
      · cases hok
        exact .inl rfl
      · cases hok
        exact .inl rfl
    | markRunning =>
      simp only [execWrite] at hok
      split at hok
      · cases hok
        exact .inl rfl
      · obtain ⟨_, _, rfl⟩ := appendCallbackEvent_ok hok
        exact .inl rfl
    | stepChanged =>
      obtain ⟨_, _, rfl⟩ := appendCallbackEvent_ok hok
      exact .inl rfl
    | purgeCheckpoints =>
      cases hok
      exact .inr (.inl ⟨rfl, fun q => decide (q ≠ run.runId), rfl⟩)
    | saveCheckpoint key state =>
      cases hok
      exact .inr (.inr ⟨key, state, held, run, rfl, hi, hfind, howned.1, howned.2,
        rfl⟩)
    | _ =>
      cases hok
      exact .inl rfl
  · cases h
    exact .inl rfl

/-- A holder of the run adds its rows. -/
theorem write_addStep {sys : Sys} {place : Nat} {held : Issued} {row : AgentStep}
    (hheld : sys.issued[place]? = some held) (hrow : row.runId = held.runId)
    (hholds : HasRun sys place) : row ∈ (step limits sys ⟨0, .write place (.addStep row)⟩).db.steps := by
  obtain ⟨held', run, hi, hfind, howned, hattempt⟩ := hholds
  rw [hheld] at hi
  cases hi
  have hok : perform limits sys.db (sys.clock + 0) sys.issued (.write place (.addStep row))
      = .ok ({ sys.db with steps := sys.db.steps ++ [row] }.commit, sys.issued) := by
    unfold perform withContext
    simp only [hheld, hfind, if_pos (And.intro howned hattempt), execWrite,
      if_pos (hrow.trans (Table.key_of_find? hfind).symm)]
    rfl
  rw [step_ok hok]
  exact List.mem_append_right _ (List.mem_singleton_self row)

namespace Fleet

theorem commitWrites_run (place : Nat) (sys : Sys) (writes : List ExecWrite) :
    commitWrites limits place sys writes
      = Runs.run (fun sys w => step limits sys ⟨0, .write place w⟩) sys writes := rfl

/-- Writes that add rows at most. -/
theorem commitWrites_kept {place : Nat} (sys : Sys) :
    ∀ writes : List ExecWrite, (∀ w ∈ writes, AddsRows w) →
      WorkKept sys (commitWrites limits place sys writes) := by
  intro writes
  induction writes generalizing sys with
  | nil => exact fun _ => .refl sys
  | cons w writes ih =>
    intro hadds
    have hfirst : WorkKept sys (step limits sys ⟨0, .write place w⟩) :=
      workKept_step limits sys fun i w' hw => by
        cases hw
        exact hadds w List.mem_cons_self
    exact hfirst.trans (ih _ fun w' hw' => hadds w' (List.mem_cons_of_mem _ hw'))

/-- A worker that holds its run in the end has written the rows of its writes. -/
theorem commitWrites_done {place : Nat} {runId name : String} (sys : Sys) (hnumbers : Numbers sys)
    {held : Issued} (hheld : sys.issued[place]? = some held) (hid : held.runId = runId) :
    ∀ writes : List ExecWrite, (∀ w ∈ writes, OfNode runId name w) →
      HasRun (commitWrites limits place sys writes) place →
        ∀ x ∈ writes.flatMap doneBy, NodeDone (commitWrites limits place sys writes).db runId x := by
  intro writes
  induction writes generalizing sys held with
  | nil => exact fun _ _ x hx => (nomatch hx)
  | cons w writes ih =>
    intro hall hholds x hx
    let sys' := step limits sys ⟨0, .write place w⟩
    have hrest : ∀ w' ∈ writes, OfNode runId name w' :=
      fun w' hw' => hall w' (List.mem_cons_of_mem _ hw')
    have hnumbers' : Numbers sys' := numbers_step limits sys _ hnumbers
    have hkept : WorkKept sys' (commitWrites limits place sys' writes) :=
      commitWrites_kept sys' writes fun w' hw' => (hrest w' hw').addsRows
    obtain ⟨held', hheld', hid', _⟩ := step_contexts limits sys ⟨0, .write place w⟩ hheld
    rw [List.flatMap_cons] at hx
    rcases List.mem_append.mp hx with hhere | hlater
    · -- the run is held now, and so the row is written
      have hlt : place < sys.issued.length := (List.getElem?_eq_some_iff.mp hheld).1
      have hlt' : place < sys'.issued.length := (List.getElem?_eq_some_iff.mp hheld').1
      have hnow : HasRun sys place :=
        holds_before limits _ hnumbers hlt (hkept.holds hnumbers' place hlt' hholds)
      refine hkept.rows runId x ?_
      cases w with
      | addStep row =>
        obtain ⟨hrow, hname⟩ := hall _ List.mem_cons_self
        by_cases hdone : row.Done
        · rw [doneBy, if_pos hdone] at hhere
          rw [List.mem_singleton.mp hhere]
          exact ⟨row, write_addStep hheld (hrow.trans hid.symm) hnow, hrow, rfl, hdone⟩
        · rw [doneBy, if_neg hdone] at hhere
          cases hhere
      | _ => cases hhere
    · exact ih sys' hnumbers' hheld' (hid'.trans hid) hrest hholds x hlater

theorem commitWrites_advances (place : Nat) (sys : Sys) (writes : List ExecWrite) :
    Advances sys (commitWrites limits place sys writes) := by
  rw [commitWrites_run]
  exact run_mono (R := Advances) Advances.refl Advances.trans
    (fun sys w => advances_step limits sys ⟨0, .write place w⟩) writes sys

theorem commitWrites_numbers (place : Nat) (sys : Sys) (writes : List ExecWrite)
    (h : Numbers sys) : Numbers (commitWrites limits place sys writes) := by
  rw [commitWrites_run]
  exact run_inv (fun sys w => numbers_step limits sys ⟨0, .write place w⟩) writes sys h

theorem commitWrites_clock (place : Nat) (sys : Sys) (writes : List ExecWrite) :
    (commitWrites limits place sys writes).clock = sys.clock := by
  rw [commitWrites_run]
  exact run_inv (I := fun sys' => sys'.clock = sys.clock)
    (fun sys' w h => (clock_step limits sys' ⟨0, .write place w⟩).trans h) writes sys rfl

theorem commitWrites_plans (place : Nat) (sys : Sys) (writes : List ExecWrite) :
    (commitWrites limits place sys writes).db.plans = sys.db.plans := by
  rw [commitWrites_run]
  refine run_inv (I := fun sys' => sys'.db.plans = sys.db.plans) (fun sys' w h => ?_) writes sys rfl
  rcases step_cases limits sys' ⟨0, .write place w⟩ with ⟨db, issued, hok, hs⟩ | hs
  · rw [hs]
    exact (write_steps hok).1.trans h
  · rw [hs]
    exact h

theorem write_dry {place : Nat} {sys : Sys} {w : ExecWrite} (hw : Dry w) :
    (step limits sys ⟨0, .write place w⟩).db.checkpoints = sys.db.checkpoints := by
  rcases step_cases limits sys ⟨0, .write place w⟩ with ⟨db, issued, hok, hs⟩ | hs
  · rw [hs]
    rcases write_checkpoints hok with h | ⟨rfl, _⟩ | ⟨_, _, _, _, rfl, _⟩
    · exact h
    · exact hw.elim
    · exact hw.elim
  · rw [hs]

/-- Dry writes leave the checkpoints as they are. -/
theorem commitWrites_dry {place : Nat} (sys : Sys) :
    ∀ writes : List ExecWrite, (∀ w ∈ writes, Dry w) →
      (commitWrites limits place sys writes).db.checkpoints = sys.db.checkpoints := by
  intro writes
  induction writes generalizing sys with
  | nil => exact fun _ => rfl
  | cons w writes ih =>
    intro hdry
    refine (ih (step limits sys ⟨0, .write place w⟩) fun w' hw' => ?_).trans ?_
    · exact hdry w' (List.mem_cons_of_mem _ hw')
    · exact write_dry (hdry w List.mem_cons_self)

/-- What opens an attempt takes the checkpoints of runs at most. -/
theorem commitWrites_opens {place : Nat} (sys : Sys) :
    ∀ writes : List ExecWrite, (∀ w ∈ writes, OpensAttempt w) →
      ∃ keep : String → Bool, (commitWrites limits place sys writes).db.checkpoints
        = sys.db.checkpoints.filter fun c => keep c.runId := by
  intro writes
  induction writes generalizing sys with
  | nil => exact fun _ => ⟨fun _ => true, (List.filter_true _).symm⟩
  | cons w writes ih =>
    intro hopens
    obtain ⟨keep, hkeep⟩ := ih (step limits sys ⟨0, .write place w⟩) fun w' hw' =>
      hopens w' (List.mem_cons_of_mem _ hw')
    have hfirst : ∃ keep' : String → Bool, (step limits sys ⟨0, .write place w⟩).db.checkpoints
        = sys.db.checkpoints.filter fun c => keep' c.runId := by
      rcases step_cases limits sys ⟨0, .write place w⟩ with ⟨db, issued, hok, hs⟩ | hs
      · rw [hs]
        rcases write_checkpoints hok with h | ⟨_, h⟩ | ⟨_, _, _, _, rfl, _⟩
        · exact ⟨fun _ => true, by rw [h, List.filter_true]⟩
        · exact h
        · exact (hopens _ List.mem_cons_self).elim
      · rw [hs]
        exact ⟨fun _ => true, (List.filter_true _).symm⟩
    obtain ⟨keep', hkeep'⟩ := hfirst
    refine ⟨fun q => keep' q && keep q, ?_⟩
    refine hkeep.trans ?_
    rw [hkeep', List.filter_filter]
    exact List.filter_congr fun c _ => Bool.and_comm _ _

end Fleet

/-! ## Who is at work -/

/-- Every worker holds a context of its own. -/
structure Manned (f : Fleet) : Prop where
  numbers : Numbers f.sys
  contexts : ∀ w ∈ f.workers, ∃ held, f.sys.issued[w.place]? = some held ∧
    held.runId = w.runId ∧ held.ctx.executionAttempt = w.executionAttempt
  places : (f.workers.map (·.place)).Nodup

namespace Manned

variable {f : Fleet}

/-- Run and attempt tell the worker. -/
theorem unique (h : Manned f) {w w' : PlanWorker} (hw : w ∈ f.workers) (hw' : w' ∈ f.workers)
    (hrun : w.runId = w'.runId) (hattempt : w.executionAttempt = w'.executionAttempt) : w = w' := by
  obtain ⟨held, hi, hid, hnumber⟩ := h.contexts w hw
  obtain ⟨held', hi', hid', hnumber'⟩ := h.contexts w' hw'
  have hplace : w.place = w'.place :=
    h.numbers.place_inj hi hi' (by rw [hid, hid', hrun]) (by rw [hnumber, hnumber', hattempt])
  exact List.inj_on_of_nodup_map h.places hw hw' hplace

theorem attempt_le (h : Manned f) {w : PlanWorker} {run : AgentRun} (hw : w ∈ f.workers)
    (hfind : f.sys.db.runs.find? w.runId = some run) :
    w.executionAttempt ≤ run.executionAttempt := by
  obtain ⟨held, hi, hid, hnumber⟩ := h.contexts w hw
  rw [← hnumber]
  exact h.numbers.attempt_le hi (hid ▸ hfind)

/-- The workers go on with what they hold. -/
theorem advance (h : Manned f) {sys : Sys} (hnumbers : Numbers sys) (hsys : Advances f.sys sys) :
    Manned { f with sys := sys } := by
  refine ⟨hnumbers, fun w hw => ?_, h.places⟩
  obtain ⟨held, hi, hid, hnumber⟩ := h.contexts w hw
  obtain ⟨held', hi', hid', hnumber'⟩ := hsys.contexts _ _ hi
  exact ⟨held', hi', hid'.trans hid, hnumber'.trans hnumber⟩

theorem commit (h : Manned f) (place : Nat) (writes : List ExecWrite) :
    Manned { f with sys := Fleet.commitWrites limits place f.sys writes } :=
  h.advance (Fleet.commitWrites_numbers place f.sys writes h.numbers)
    (Fleet.commitWrites_advances place f.sys writes)

theorem visits (h : Manned f) {j : Nat} {w : PlanWorker} {run : AgentRun} {node : PlanNode}
    {rest : List PlanNode} (turn : NodeTurn) (hw : f.workers[j]? = some w) :
    Manned (f.visits limits j w run node rest turn) := by
  unfold Fleet.visits
  dsimp only
  have hcommit := fun writes => @commit limits f h w.place writes
  refine ⟨(hcommit _).numbers, fun w' hw' => ?_, ?_⟩
  · rcases List.mem_or_eq_of_mem_set hw' with hold | rfl
    · exact (hcommit _).contexts w' hold
    · exact (hcommit _).contexts w (List.mem_of_getElem? hw)
  · -- the worker that has moved is where it was
    show ((f.workers.set j _).map (·.place)).Nodup
    rw [map_set_same hw]
    · exact h.places
    · rfl

end Manned

/-! ## What a worker saves -/

/-- What the worker meets at a node. -/
def PlanWorker.meets (w : PlanWorker) (turn : NodeTurn) : AttemptContext :=
  { plan := w.plan, executionAttempt := w.executionAttempt, turn := fun _ => turn }

/-- The worker after a visit. -/
def PlanWorker.visited (w : PlanWorker) (run : AgentRun) (node : PlanNode) (rest : List PlanNode)
    (turn : NodeTurn) : PlanWorker :=
  { w with state := (w.meets turn).visit { w.state with run := run } node, left := rest }

/-- A worker saves a checkpoint of what it has completed, at the newest attempt
of its run. -/
structure Saves (f f' : Fleet) (w w' : PlanWorker) (row : AgentCheckpoint) : Prop where
  checkpoints : f'.sys.db.checkpoints = f.sys.db.checkpoints ++ [row]
  runId : row.runId = w.runId
  key : row.checkpointKey = checkpointKey w.executionAttempt w'.state.completedSteps
  ids : row.state.completedNodeIds = w'.state.completedNodeIds
  createdAt : row.createdAt = f.sys.clock
  steps : w.state.completedSteps < w'.state.completedSteps
  newest : ∀ other ∈ f.workers, other.runId = w.runId →
    other.executionAttempt ≤ w.executionAttempt
  holds : HasRun f.sys w.place
  rows : ∀ x ∈ w'.state.completedNodeIds,
    x ∈ w.state.completedNodeIds ∨ NodeDone f'.sys.db w.runId x

/-- A key that is new gives a new row. -/
theorem saveCheckpoint_fresh {db : Db} {run : AgentRun} {ctx : LeaseContext} {key : String}
    {state : CheckpointState}
    (hfresh : ∀ row ∈ db.checkpoints, row.runId = run.runId → row.checkpointKey ≠ key) :
    (saveCheckpoint db now run ctx key state).checkpoints = db.checkpoints ++ [{
      runId := run.runId
      checkpointKey := key
      privacyVersion := ctx.privacyVersion
      state := state
      createdAt := now
      expiresAt := run.runDeadlineAt }] := by
  unfold saveCheckpoint
  rw [if_neg]
  intro hany
  obtain ⟨row, hrow, hkey⟩ := List.any_eq_true.mp hany
  obtain ⟨hid, heq⟩ := of_decide_eq_true hkey
  exact hfresh row hrow hid heq

/-- What a visit commits is of its node. -/
theorem PlanWorker.visited_writes (w : PlanWorker) {run : AgentRun} (node : PlanNode)
    (rest : List PlanNode) (turn : NodeTurn) {writes : List ExecWrite}
    (hwrites : (w.visited run node rest turn).state.writes = w.state.writes ++ writes)
    (hid : run.runId = w.runId) : ∀ x ∈ writes, OfNode w.runId node.nodeId x := by
  obtain ⟨_, writes', hwrites', hall⟩ := (w.meets turn).visit_writes { w.state with run := run } node
  have hsame : writes = writes' := List.append_cancel_left (hwrites.symm.trans hwrites')
  rw [hsame]
  exact hid ▸ hall

/-- A visit keeps the work, and a worker that holds its run after it has written
the rows of what it has completed. -/
theorem Manned.visits_done {f : Fleet} (h : Manned f) {j : Nat} {w : PlanWorker} {run : AgentRun}
    (node : PlanNode) (rest : List PlanNode) (turn : NodeTurn) (hw : f.workers[j]? = some w)
    (hrun : f.sys.db.runs.find? w.runId = some run) :
    WorkKept f.sys (f.visits limits j w run node rest turn).sys ∧
    (HasRun (f.visits limits j w run node rest turn).sys w.place →
      ∀ x ∈ (w.visited run node rest turn).state.completedNodeIds, x ∈ w.state.completedNodeIds ∨
        NodeDone (f.visits limits j w run node rest turn).sys.db w.runId x) := by
  have hsaves : VisitSaves (w.meets turn) { w.state with run := run }
      (w.visited run node rest turn).state :=
    (w.meets turn).visit_saves { w.state with run := run } node
  obtain ⟨writes, hwrites, haccounts⟩ : ∃ writes,
      (w.visited run node rest turn).state.writes = w.state.writes ++ writes ∧
        Accounts { w.state with run := run } (w.visited run node rest turn).state writes := by
    rcases hsaves.writes with ⟨writes, hwrites, _, haccounts⟩ |
      ⟨front, back, waitingHuman, hwrites, _, _, _, haccounts⟩
    · exact ⟨writes, hwrites, haccounts⟩
    · refine ⟨_, hwrites, fun x hx => (haccounts x hx).imp_right fun hmem => ?_⟩
      rw [List.flatMap_append]
      exact List.mem_append_left _ hmem
  have hall := w.visited_writes node rest turn hwrites (Table.key_of_find? hrun)
  have hsys : (f.visits limits j w run node rest turn).sys
      = Fleet.commitWrites limits w.place f.sys writes := by
    show Fleet.commitWrites limits w.place f.sys
      ((w.visited run node rest turn).state.writes.drop w.state.writes.length) = _
    rw [hwrites, List.drop_left]
  rw [hsys]
  obtain ⟨held, hheld, hid, _⟩ := h.contexts w (List.mem_of_getElem? hw)
  refine ⟨Fleet.commitWrites_kept f.sys writes fun x hx => (hall x hx).addsRows,
    fun hholds x hx => (haccounts x hx).imp_right fun hmem => ?_⟩
  exact Fleet.commitWrites_done f.sys h.numbers hheld hid writes hall hholds x hmem

theorem Manned.visits_saves {f : Fleet} (h : Manned f) {j : Nat} {w : PlanWorker} {run : AgentRun}
    (node : PlanNode) (rest : List PlanNode) (turn : NodeTurn) (hw : f.workers[j]? = some w)
    (hrun : f.sys.db.runs.find? w.runId = some run)
    (hfresh : ∀ row ∈ f.sys.db.checkpoints, row.runId = w.runId →
      row.checkpointKey ≠ checkpointKey w.executionAttempt (w.state.completedSteps + 1)) :
    (f.visits limits j w run node rest turn).sys.db.checkpoints = f.sys.db.checkpoints ∨
    ∃ row, Saves f (f.visits limits j w run node rest turn) w (w.visited run node rest turn) row := by
  have hsaves : VisitSaves (w.meets turn) { w.state with run := run }
      (w.visited run node rest turn).state :=
    (w.meets turn).visit_saves { w.state with run := run } node
  have hsys : (f.visits limits j w run node rest turn).sys = Fleet.commitWrites limits w.place f.sys
      ((w.visited run node rest turn).state.writes.drop w.state.writes.length) := rfl
  rcases hsaves.writes with ⟨writes, hwrites, hdry, _⟩ |
    ⟨front, back, waitingHuman, hwrites, hfront, hback, hsteps, haccounts⟩
  · left
    rw [hsys, hwrites, List.drop_left]
    exact Fleet.commitWrites_dry f.sys writes hdry
  -- up to the save, and after it, nothing happens to the checkpoints
  let sys := Fleet.commitWrites limits w.place f.sys front
  let save : ExecWrite :=
    .saveCheckpoint (checkpointKey w.executionAttempt (w.visited run node rest turn).state.completedSteps)
      ((w.meets turn).checkpointState (w.visited run node rest turn).state waitingHuman)
  have hbefore : sys.db.checkpoints = f.sys.db.checkpoints :=
    Fleet.commitWrites_dry f.sys front hfront
  have hafter : (f.visits limits j w run node rest turn).sys.db.checkpoints
      = (step limits sys ⟨0, .write w.place save⟩).db.checkpoints := by
    have hdrop : (w.visited run node rest turn).state.writes.drop w.state.writes.length
        = front ++ save :: back := by
      rw [hwrites]
      exact List.drop_left
    rw [hsys, hdrop, Fleet.commitWrites_run, run_append, run_cons]
    exact Fleet.commitWrites_dry _ back hback
  rw [hafter]
  rcases step_cases limits sys ⟨0, .write w.place save⟩ with ⟨db, issued, hok, hs⟩ | hs
  · rw [hs]
    rcases write_checkpoints hok with hsame | ⟨hpurge, _⟩ |
      ⟨key, state, held, run', hkey, hi, hfind, howned, hattempt, hsaved⟩
    · exact .inl (hsame.trans hbefore)
    · exact absurd hpurge (by simp [save])
    change ExecWrite.saveCheckpoint _ _ = _ at hkey
    cases hkey
    right
    -- the context is the worker's, and the row has not been claimed again
    obtain ⟨held₀, hi₀, hid₀, hnumber₀⟩ := h.contexts w (List.mem_of_getElem? hw)
    have hadvances : Advances f.sys sys := Fleet.commitWrites_advances w.place f.sys front
    obtain ⟨held', hi', hid', hnumber'⟩ := hadvances.contexts _ _ hi₀
    rw [hi] at hi'
    cases hi'
    have hid : held.runId = w.runId := hid'.trans hid₀
    have hrunId : run'.runId = w.runId := (Table.key_of_find? hfind).trans hid
    obtain ⟨run'', hfind'', hle⟩ := hadvances.rows _ _ hrun
    have hall := w.visited_writes node rest turn hwrites (Table.key_of_find? hrun)
    have hallFront : ∀ x ∈ front, OfNode w.runId node.nodeId x :=
      fun x hx => hall x (List.mem_append_left _ hx)
    have hholds : HasRun sys w.place := ⟨held, run', hi, hfind, howned, hattempt⟩
    have hlater : WorkKept sys (f.visits limits j w run node rest turn).sys := by
      have hdrop : (w.visited run node rest turn).state.writes.drop w.state.writes.length
          = front ++ save :: back := by
        rw [hwrites]
        exact List.drop_left
      rw [hsys, hdrop, Fleet.commitWrites_run, run_append]
      exact Fleet.commitWrites_kept sys (save :: back) fun x hx =>
        (hall x (List.mem_append_right _ hx)).addsRows
    rw [hid, hfind''] at hfind
    cases hfind
    refine ⟨_, (hafter.trans (by rw [hs])).trans (hsaved.trans ((saveCheckpoint_fresh ?_).trans
      (by rw [hbefore]))), hrunId, rfl, rfl, ?_, Nat.lt_of_succ_le hsteps.ge, ?_,
      ?_, fun x hx => (haccounts x hx).imp_right fun hmem => ?_⟩
    · intro row hrow hid'
      rw [hbefore] at hrow
      rw [show (w.visited run node rest turn).state.completedSteps = w.state.completedSteps + 1
        from hsteps]
      exact hfresh row hrow (hid'.trans hrunId)
    · exact Fleet.commitWrites_clock w.place f.sys front
    · intro other hother hotherRun
      have hother' := h.attempt_le hother (hotherRun ▸ hrun)
      omega
    · exact (Fleet.commitWrites_kept f.sys front fun x hx => (hallFront x hx).addsRows).holds
        h.numbers w.place (List.getElem?_eq_some_iff.mp hi₀).1 hholds
    · exact hlater.rows _ _
        (Fleet.commitWrites_done f.sys h.numbers hi₀ hid₀ front hallFront hholds x hmem)
  · rw [hs]
    exact .inl hbefore

/-! ## What happens to a crew -/

/-- The work goes on, and of the checkpoints those of some runs are there. -/
structure SysKept (s s' : Sys) : Prop extends WorkKept s s' where
  checkpoints : ∃ keep : String → Bool,
    s'.db.checkpoints = s.db.checkpoints.filter fun c => keep c.runId

theorem SysKept.refl (s : Sys) : SysKept s s :=
  ⟨.refl s, ⟨fun _ => true, (List.filter_true _).symm⟩⟩

theorem sysKept_step (limits : AdmissionLimits) (s : Sys) {e : Event}
    (hop : e.op.isWrite = false) : SysKept s (step limits s e) := by
  refine ⟨workKept_step limits s fun i w hw => ?_, ?_⟩
  · rw [hw] at hop
    cases hop
  rcases step_cases limits s e with ⟨db, issued, hok, hs⟩ | hs
  · rw [hs]
    exact (perform_steps hop hok).checkpoints
  · rw [hs]
    exact ⟨fun _ => true, (List.filter_true _).symm⟩

theorem sysKept_opens {place : Nat} (sys : Sys) {writes : List ExecWrite}
    (hopens : ∀ w ∈ writes, OpensAttempt w) :
    SysKept sys (Fleet.commitWrites limits place sys writes) := by
  exact ⟨Fleet.commitWrites_kept sys writes fun w hw =>
    OfNode.addsRows ((hopens w hw).quiet "" ""), Fleet.commitWrites_opens sys writes hopens⟩

/-- An attempt is refused, or its worker comes to the first node. -/
theorem Fleet.begins_cases (limits : AdmissionLimits) (f : Fleet) (i : Nat) (held : Issued)
    (p : Prologue) (resumed : Option (Option CheckpointState)) (run : AgentRun)
    (plan : AgentPlan) :
    ((f.begins limits i held p resumed run plan).workers = f.workers ∧
      SysKept f.sys (f.begins limits i held p resumed run plan).sys) ∨
    ∃ w, (f.begins limits i held p resumed run plan).workers = f.workers ++ [w] ∧ w.place = i ∧
      w.runId = held.runId ∧ w.executionAttempt = held.ctx.executionAttempt ∧ w.plan = plan ∧
      w.left = plan.steps ∧ (w.meets {}).opening p run resumed = some w.state ∧
      SysKept f.sys (f.begins limits i held p resumed run plan).sys := by
  unfold Fleet.begins
  dsimp only
  split
  next hnone =>
    exact .inl ⟨rfl, sysKept_opens f.sys (AttemptContext.attempt_opens _ hnone)⟩
  next s hsome =>
    exact .inr ⟨_, rfl, rfl, rfl, rfl, rfl, rfl, hsome,
      sysKept_opens f.sys (AttemptContext.opening_opens _ hsome).1⟩

/-- A worker begins: it holds the context, and comes to the first node of the
plan. -/
structure Begun (c : Crew) (i : Nat) (p : Prologue) (w : PlanWorker) : Prop where
  place : w.place = i
  free : ∀ other ∈ c.fleet.workers, other.place ≠ i
  started : ∃ held status run, c.fleet.sys.issued[i]? = some held ∧
    c.seen[i]? = some status ∧ c.fleet.sys.db.runs.find? held.runId = some run ∧
    c.fleet.sys.db.plan? held.runId = some w.plan ∧ w.runId = held.runId ∧
    w.executionAttempt = held.ctx.executionAttempt ∧ w.left = w.plan.steps ∧
    (w.meets {}).opening { p with
      mayWrite := LeaseService.canWrite c.fleet.sys.db c.fleet.sys.clock held.runId held.ctx }
      run (c.startsFrom status held) = some w.state

/-- What an event does: no worker begins or moves, one begins, or one comes to
its next node. -/
inductive CrewStep (limits : AdmissionLimits) (c : Crew) : CrewEvent → Crew → Prop
  | quiet (e : CrewEvent) (c' : Crew) (hworkers : c'.fleet.workers = c.fleet.workers)
      (hcheckpointed : c'.checkpointed = c.checkpointed)
      (hkept : SysKept c.fleet.sys c'.fleet.sys)
      (hdecisions : ∀ d ∈ c'.decisions, d ∈ c.decisions ∨ ∃ run,
        c'.fleet.sys.db.runs.find? d.runId = some run ∧ d.executionAttempt = run.executionAttempt) :
      CrewStep limits c e c'
  | begins (place : Nat) (p : Prologue) (c' : Crew) (w : PlanWorker) (hbegun : Begun c place p w)
      (hworkers : c'.fleet.workers = c.fleet.workers ++ [w])
      (hcheckpointed : c'.checkpointed = c.checkpointed)
      (hkept : SysKept c.fleet.sys c'.fleet.sys) (hdecisions : c'.decisions = c.decisions) :
      CrewStep limits c (.begins place p) c'
  | visits (j : Nat) (turn : NodeTurn) (c' : Crew) (w : PlanWorker) (run : AgentRun)
      (node : PlanNode) (rest : List PlanNode) (hw : c.fleet.workers[j]? = some w)
      (hrun : c.fleet.sys.db.runs.find? w.runId = some run) (hleft : w.left = node :: rest)
      (hfleet : c'.fleet = c.fleet.visits limits j w run node rest turn)
      (hcheckpointed : c'.checkpointed = c.checkpointed ++
        checkpointedAfter c.fleet.sys.db c'.fleet.sys.db w.executionAttempt)
      (hdecisions : c'.decisions = c.decisions) : CrewStep limits c (.visits j turn) c'

theorem checkpointedAfter_self (db : Db) (executionAttempt : Nat) :
    checkpointedAfter db db executionAttempt = [] := by
  unfold checkpointedAfter
  rw [List.filter_eq_nil_iff.mpr fun row hrow => by simp [hrow]]
  rfl

/-- A decision that is new is of the attempt the run has come to. -/
theorem decisionsAfter_cases {before after : Db} {decisions : List FallbackDecision} {op : Op}
    {d : FallbackDecision} (hd : d ∈ decisionsAfter before after decisions op) :
    d ∈ decisions ∨
      ∃ run, after.runs.find? d.runId = some run ∧ d.executionAttempt = run.executionAttempt := by
  unfold decisionsAfter at hd
  split at hd
  · exact .inl hd
  next runId _ =>
    split at hd
    next run run' _ hfind =>
      split at hd
      · split at hd
        · rcases List.mem_append.mp hd with hold | hnew
          · exact .inl hold
          · rw [List.mem_singleton.mp hnew]
            exact .inr ⟨run', hfind, rfl⟩
        · exact .inl (List.mem_filter.mp hd).1
      · exact .inl hd
    · exact .inl hd

namespace Crew

variable {c : Crew}

theorem begins_step (place : Nat) (p : Prologue) {held : Issued} {status : Option RunStatus}
    (hheld : c.fleet.sys.issued[place]? = some held) (hseen : c.seen[place]? = some status)
    (hfree : ∀ other ∈ c.fleet.workers, other.place ≠ place) :
    CrewStep limits c (.begins place p) (c.begins limits place held status p) := by
  have hquiet : (c.begins limits place held status p).fleet = c.fleet →
      CrewStep limits c (.begins place p) (c.begins limits place held status p) := fun hsame =>
    .quiet _ _ (congrArg Fleet.workers hsame) rfl (hsame ▸ SysKept.refl _)
      fun _ hd => .inl hd
  cases hrun : c.fleet.sys.db.runs.find? held.runId with
  | none =>
    refine hquiet ?_
    unfold begins
    simp only [Fleet.happens, hheld, hrun]
  | some run =>
    cases hplan : c.fleet.sys.db.plan? held.runId with
    | none =>
      refine hquiet ?_
      unfold begins
      simp only [Fleet.happens, hheld, hrun, hplan]
    | some plan =>
      let p' : Prologue := { p with
        mayWrite := LeaseService.canWrite c.fleet.sys.db c.fleet.sys.clock held.runId held.ctx }
      have hfleet : (c.begins limits place held status p).fleet
          = c.fleet.begins limits place held p' (c.startsFrom status held) run plan := by
        show c.fleet.happens limits (.begins place p' (c.startsFrom status held)) = _
        simp only [Fleet.happens, hheld, hrun, hplan]
      rcases c.fleet.begins_cases limits place held p' (c.startsFrom status held) run plan with
        ⟨hworkers, hkept⟩ | ⟨w, hworkers, hplace, hrunId, hattempt, hplan', hleft, hopening, hkept⟩
      · rw [← hfleet] at hworkers hkept
        exact .quiet _ _ hworkers rfl hkept fun _ hd => .inl hd
      · rw [← hfleet] at hworkers hkept
        exact .begins place p _ w ⟨hplace, hfree, held, status, run, hheld, hseen, hrun, hplan' ▸ hplan,
          hrunId, hattempt, hleft.trans (congrArg AgentPlan.steps hplan'.symm), hopening⟩
          hworkers rfl hkept rfl

/-- **What an event does to a crew.** -/
theorem happens_step (limits : AdmissionLimits) (c : Crew) (e : CrewEvent) :
    CrewStep limits c e (c.happens limits e) := by
  cases e with
  | op e =>
    simp only [happens]
    split
    · exact .quiet _ _ rfl rfl (.refl _) fun _ hd => .inl hd
    next hworkers =>
      have hwrite : e.op.isWrite = false := by
        cases hop : e.op with
        | write i w =>
          rw [hop] at hworkers
          exact absurd rfl hworkers
        | _ => rfl
      have hfleet : c.fleet.happens limits (.op e)
          = { c.fleet with sys := step limits c.fleet.sys e } := by
        simp only [Fleet.happens, hwrite]
        rfl
      refine .quiet _ _ ?_ rfl ?_ fun d hd => decisionsAfter_cases hd
      · show (c.fleet.happens limits (.op e)).workers = c.fleet.workers
        rw [hfleet]
      · show SysKept c.fleet.sys (c.fleet.happens limits (.op e)).sys
        rw [hfleet]
        exact sysKept_step limits c.fleet.sys hwrite
  | reads runId => exact .quiet _ _ rfl rfl (.refl _) fun _ hd => .inl hd
  | claims k owner elapsed leaseSeconds =>
    simp only [happens]
    split
    · exact .quiet _ _ rfl rfl (.refl _) fun _ hd => .inl hd
    next runId status _ =>
      exact .quiet _ _ rfl rfl (sysKept_step limits c.fleet.sys rfl) fun _ hd => .inl hd
  | begins place p =>
    simp only [happens]
    split
    next held status hheld hseen =>
      split
      · exact .quiet _ _ rfl rfl (.refl _) fun _ hd => .inl hd
      next hany =>
        refine begins_step place p hheld hseen fun other hother hplace => hany ?_
        exact List.any_eq_true.mpr ⟨other, hother, decide_eq_true hplace⟩
    · exact .quiet _ _ rfl rfl (.refl _) fun _ hd => .inl hd
  | visits j turn =>
    simp only [happens]
    split
    · exact .quiet _ _ rfl rfl (.refl _) fun _ hd => .inl hd
    next w hw =>
      have hquiet : c.fleet.happens limits (.visits j turn) = c.fleet →
          CrewStep limits c (.visits j turn) (c.visits limits j w turn) := by
        intro hsame
        refine .quiet _ _ (congrArg Fleet.workers hsame) ?_ ?_ fun _ hd => .inl hd
        · show c.checkpointed ++ checkpointedAfter c.fleet.sys.db
            (c.fleet.happens limits (.visits j turn)).sys.db w.executionAttempt = c.checkpointed
          rw [hsame, checkpointedAfter_self, List.append_nil]
        · show SysKept c.fleet.sys (c.fleet.happens limits (.visits j turn)).sys
          rw [hsame]
          exact .refl _
      cases hrun : c.fleet.sys.db.runs.find? w.runId with
      | none => exact hquiet (by simp only [Fleet.happens, hw, hrun])
      | some run =>
        cases hleft : w.left with
        | nil => exact hquiet (by simp only [Fleet.happens, hw, hrun, hleft])
        | cons node rest =>
          refine .visits j turn _ w run node rest hw hrun hleft ?_ rfl rfl
          show c.fleet.happens limits (.visits j turn) = _
          simp only [Fleet.happens, hw, hrun, hleft]

theorem manned_step {e : CrewEvent} {c' : Crew} (h : Manned c.fleet)
    (hstep : CrewStep limits c e c') : Manned c'.fleet := by
  have hkeeps : SysKept c.fleet.sys c'.fleet.sys → Manned ⟨c'.fleet.sys, c.fleet.workers⟩ :=
    fun hkept => h.advance (hkept.numbers h.numbers) hkept.advances
  cases hstep with
  | quiet _ _ hworkers _ hkept _ =>
    have hold := hkeeps hkept
    rw [← hworkers] at hold
    exact hold
  | begins place p _ w hbegun hworkers _ hkept _ =>
    have hold := hkeeps hkept
    obtain ⟨held, _, _, hi, _, _, _, hrunId, hattempt, _⟩ := hbegun.started
    obtain ⟨held', hi', hid, hnumber⟩ := hkept.advances.contexts _ _ hi
    refine ⟨hold.numbers, fun other hother => ?_, ?_⟩
    · rw [hworkers] at hother
      rcases List.mem_append.mp hother with hother | hnew
      · exact hold.contexts other hother
      · rw [List.mem_singleton.mp hnew, hbegun.place]
        exact ⟨held', hi', hid.trans hrunId.symm, hnumber.trans hattempt.symm⟩
    · -- no other worker has begun with this context
      rw [hworkers, List.map_append, List.map_singleton]
      refine h.places.append (List.nodup_singleton _) fun place' hplace hsingle => ?_
      obtain ⟨other, hother, rfl⟩ := List.mem_map.mp hplace
      exact hbegun.free other hother ((List.mem_singleton.mp hsingle).trans hbegun.place)
  | visits j turn _ w run node rest hw _ _ hfleet _ _ =>
    rw [hfleet]
    exact h.visits turn hw

theorem orderly_happens (e : CrewEvent) (h : Orderly c.fleet) :
    Orderly (c.happens limits e).fleet := by
  cases e with
  | op e =>
    simp only [happens]
    split
    · exact h
    · exact h.happens (.op e)
  | reads runId => exact h
  | claims k owner elapsed leaseSeconds =>
    simp only [happens]
    split
    · exact h
    next runId status _ => exact h.happens (.op ⟨elapsed, .claim runId owner leaseSeconds⟩)
  | begins place p =>
    simp only [happens]
    split
    · split
      · exact h
      · exact h.happens (.begins place _ _)
    · exact h
  | visits j turn =>
    simp only [happens]
    split
    · exact h
    · exact h.happens (.visits j turn)

end Crew

end AgentRuntime
