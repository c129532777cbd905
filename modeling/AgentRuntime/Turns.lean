import AgentRuntime.Moves

/-!
# The services take turns

Each service operation, inverted to the move it makes. The lemmas all read
the same way: the operation returned normally, hence it was a `Turn` on its
run. Where a move needs a `Cause`, the lemma asks for it on the row the
operation found. `reapAll_turns` and `repairRun_turn` cover the two loops of
the reaper and the reconciler.
-/

namespace AgentRuntime

open Keyed Fencing

variable {limits : AdmissionLimits} {now : Time} {causes : Cause → AgentRun → Prop}

/-! ## Carrying a move out -/

theorem settle_ok {db db' : Db} {run : AgentRun} {shift : Shift} {event : Option String} :
    settle db run shift event = .ok db' ↔
      ∃ db₁, shiftSlot db run shift = .ok db₁ ∧ announce db₁ run event = .ok db' :=
  bind_ok

theorem settle_quiet (db : Db) (run : AgentRun) :
    settle db run none none = .ok { db with runs := db.runs.put run } := rfl

theorem settle_shift {db db' : Db} {run : AgentRun} {l : AdmissionLimits}
    {old new : DispatchState}
    (h : transitionRun l { db with runs := db.runs.put run } run (some old) new = .ok db') :
    settle db run (some (l, old, new)) none = .ok db' :=
  settle_ok.mpr ⟨db', h, rfl⟩

theorem settle_event {db db' : Db} {run : AgentRun} {event : String}
    (h : appendCallbackEvent { db with runs := db.runs.put run } run event = .ok db') :
    settle db run none (some event) = .ok db' := h

theorem settle_both {db db₁ db' : Db} {run : AgentRun} {l : AdmissionLimits}
    {old new : DispatchState} {event : String}
    (h₁ : transitionRun l { db with runs := db.runs.put run } run (some old) new = .ok db₁)
    (h₂ : appendCallbackEvent db₁ run event = .ok db') :
    settle db run (some (l, old, new)) (some event) = .ok db' :=
  settle_ok.mpr ⟨db₁, h₁, h₂⟩

theorem shiftSlot_runs {db db' : Db} {run : AgentRun} {shift : Shift}
    (h : shiftSlot db run shift = .ok db') : db'.runs = db.runs.put run := by
  cases shift with
  | none =>
    cases h
    rfl
  | some shift =>
    obtain ⟨_, rfl, _⟩ := transitionRun_ok h
    rfl

/-- A move that only writes the row, and leaves the privacy state of the run. -/
theorem turn_put {id : String} {db : Db} {r r' : AgentRun} (hfind : db.runs.find? id = some r)
    (hmove : Move limits now causes r r' none none)
    (hprivacy : r'.privacyState = .purged → r.privacyState = .purged) :
    Turn limits now causes id db { db with runs := db.runs.put r' } :=
  .move r r' none none hfind hmove _ (settle_quiet db r') (.refl _)
    fun hnot hpurged => absurd (hprivacy hpurged) hnot

/-! ## The worker lease -/

theorem claim_turn {db db' : Db} {leaseSeconds : Nat} {id owner : String}
    {ctx? : Option LeaseContext}
    (h : LeaseService.claim db now leaseSeconds id owner = .ok (db', ctx?))
    (hc : ∀ run, db.runs.find? id = some run → run.Claimable → causes .claim run) :
    Turn limits now causes id db db' := by
  unfold LeaseService.claim at h
  split at h
  · cases h
    exact .idle (.refl _)
  next run hfind =>
    split at h
    next hcl =>
      obtain ⟨db₁, hadm, h⟩ := bind_ok.mp h
      cases h
      exact .move run _ _ none hfind (.claim hcl (hc run hfind hcl) leaseSeconds owner) db₁
        (settle_shift hadm) (sameLedger_commit db₁) fun hnot hpurged => absurd hpurged hnot
    · cases h
      exact .idle (.refl _)

theorem heartbeat_turn (db : Db) (leaseSeconds : Nat) (id : String) (ctx : LeaseContext) :
    Turn limits now causes id db (LeaseService.heartbeat db now leaseSeconds id ctx).1 := by
  unfold LeaseService.heartbeat
  split
  · exact .idle (.refl _)
  next run hfind =>
    split
    next hr =>
      obtain ⟨⟨hd, _⟩, _, _, hl, _⟩ := hr
      exact (turn_put hfind (.renew hd hl _) fun h => h).same (sameLedger_commit _)
    · exact .idle (.refl _)

theorem releaseForDrain_turn (db : Db) (id : String) (ctx : LeaseContext) :
    Turn limits now causes id db (LeaseService.releaseForDrain db now id ctx).1 := by
  unfold LeaseService.releaseForDrain
  split
  · exact .idle (.refl _)
  next run hfind =>
    split
    next hw => exact (turn_put hfind (.drain hw.1.1) fun h => h).same (sameLedger_commit _)
    · exact .idle (.refl _)

theorem finish_turn {db db' : Db} {result : AgentRunResult} {ctx : LeaseContext} {b : Bool}
    (h : LeaseService.finish db now result ctx = .ok (db', b)) :
    Turn limits now causes result.runId db db' := by
  unfold LeaseService.finish at h
  split at h
  · cases h
    exact .idle (.refl _)
  next run hfind =>
    split at h
    next hw =>
      obtain ⟨db₁, hadm, h⟩ := bind_ok.mp h
      obtain ⟨db₂, hcb, h⟩ := bind_ok.mp h
      obtain ⟨event, hev, hcb⟩ := appendCallback_ok hcb
      cases h
      exact .move run _ _ (some event) hfind (.finish hw.2.1.1 _ event hev _) db₂
        (settle_both hadm hcb) (sameLedger_commit db₂) fun hnot hpurged => absurd hpurged hnot
    · cases h
      exact .idle (.refl _)

theorem finishAfterInvalidBoundary_turn {db db' : Db} {id : String} {ctx : LeaseContext}
    {b : Bool} (h : LeaseService.finishAfterInvalidBoundary db now id ctx = .ok (db', b)) :
    Turn limits now causes id db db' := by
  unfold LeaseService.finishAfterInvalidBoundary at h
  split at h
  · cases h
    exact .idle (.refl _)
  next run hfind =>
    split at h
    next hw =>
      obtain ⟨db₁, hadm, h⟩ := bind_ok.mp h
      obtain ⟨db₂, hcb, h⟩ := bind_ok.mp h
      obtain ⟨event, hev, hcb⟩ := appendCallback_ok hcb
      cases h
      exact .move run _ _ (some event) hfind (.finish hw.1.1 _ event hev _) db₂
        (settle_both hadm hcb) (sameLedger_commit db₂) fun hnot hpurged => absurd hpurged hnot
    · cases h
      exact .idle (.refl _)

theorem pauseForHuman_turn {db db' : Db} {id : String} {ctx : LeaseContext} {timeout : Int}
    {b : Bool} (h : LeaseService.pauseForHuman db now id ctx timeout = .ok (db', b)) :
    Turn limits now causes id db db' := by
  unfold LeaseService.pauseForHuman at h
  split at h
  · cases h
    exact .idle (.refl _)
  next run hfind =>
    split at h
    next hw =>
      obtain ⟨db₁, hadm, h⟩ := bind_ok.mp h
      obtain ⟨db₂, hcb, h⟩ := bind_ok.mp h
      cases h
      exact .move run _ _ _ hfind (.pause hw.2.1.1 _) db₂ (settle_both hadm hcb)
        (sameLedger_commit db₂) fun hnot hpurged => absurd hpurged hnot
    · cases h
      exact .idle (.refl _)

/-! ## The reaper -/

theorem reapOne_turn {db db' : Db} {selected : AgentRun} {b : Bool}
    (h : LeaseService.reapOne db now selected = .ok (db', b))
    (hc : ∀ run, db.runs.find? selected.runId = some run → run.dispatchState = .claimed →
      run.LeaseExpired now → packageExecutable db run = true → causes .reap run) :
    Turn limits now causes selected.runId db db' := by
  unfold LeaseService.reapOne at h
  split at h
  · cases h
    exact .idle (.refl _)
  next run hfind =>
    split at h
    next hw =>
      split at h
      next hpk =>
        obtain ⟨db₁, hadm, h⟩ := bind_ok.mp h
        cases h
        exact .move run _ _ none hfind
          (.reap hw.2.1 hw.2.2 (hc run hfind hw.2.1 hw.2.2 hpk)) db₁
          (settle_shift hadm) (sameLedger_dispatch db₁ _ _)
          fun hnot hpurged => absurd hpurged hnot
      next =>
        obtain ⟨db₁, hadm, h⟩ := bind_ok.mp h
        obtain ⟨db₂, hcb, h⟩ := bind_ok.mp h
        obtain ⟨event, hev, hcb⟩ := appendCallback_ok hcb
        cases h
        exact .move run _ _ (some event) hfind (.finish hw.2.1 _ event hev _) db'
          (settle_both hadm hcb) (.refl _) fun hnot hpurged => absurd hpurged hnot
    · cases h
      exact .idle (.refl _)

theorem transitionRun_definitions {l : AdmissionLimits} {db db' : Db} {run : AgentRun}
    {old : Option DispatchState} {new : DispatchState}
    (h : transitionRun l db run old new = .ok db') : db'.definitions = db.definitions := by
  obtain ⟨_, rfl, _⟩ := transitionRun_ok h
  rfl

theorem appendCallback_definitions {db db' : Db} {run : AgentRun} {status : RunStatus}
    (h : appendCallback db run status = .ok db') : db'.definitions = db.definitions := by
  obtain ⟨_, _, h⟩ := appendCallback_ok h
  obtain ⟨_, _, rfl⟩ := appendCallbackEvent_ok h
  rfl

theorem reapOne_definitions {db db' : Db} {selected : AgentRun} {b : Bool}
    (h : LeaseService.reapOne db now selected = .ok (db', b)) :
    db'.definitions = db.definitions := by
  unfold LeaseService.reapOne at h
  split at h
  · cases h
    rfl
  · split at h
    · split at h
      · obtain ⟨db₁, hadm, h⟩ := bind_ok.mp h
        have hdef := transitionRun_definitions hadm
        cases h
        exact hdef
      · obtain ⟨db₁, hadm, h⟩ := bind_ok.mp h
        obtain ⟨db₂, hcb, h⟩ := bind_ok.mp h
        have hdef := transitionRun_definitions hadm
        cases h
        exact (appendCallback_definitions hcb).trans hdef
    · cases h
      rfl

theorem packageExecutable_congr {db db' : Db} (h : db'.definitions = db.definitions)
    (run : AgentRun) : packageExecutable db' run = packageExecutable db run := by
  unfold packageExecutable Db.definition?
  rw [h]

/-- Settling a run leaves the rows of the others. -/
theorem settle_find?_ne {db db' : Db} {run : AgentRun} {shift : Shift} {event : Option String}
    (h : settle db run shift event = .ok db') {q : String} (hq : q ≠ run.runId) :
    db'.runs.find? q = db.runs.find? q := by
  obtain ⟨db₁, hshift, hevent⟩ := settle_ok.mp h
  have h₁ := shiftSlot_runs hshift
  cases event with
  | none =>
    cases hevent
    rw [h₁, Table.find?_put_ne hq]
  | some event =>
    obtain ⟨_, _, rfl⟩ := appendCallbackEvent_ok hevent
    show (db₁.runs.put run.nextEvent).find? q = _
    rw [Table.find?_put_ne (a := run.nextEvent) hq, h₁, Table.find?_put_ne hq]

/-- A turn on one run leaves the rows of the others. -/
theorem Turn.find?_ne {id q : String} {db db' : Db} (h : Turn limits now causes id db db')
    (hq : q ≠ id) : db'.runs.find? q = db.runs.find? q := by
  cases h with
  | idle h => rw [h.runs]
  | create run command definition policy callerId tenantId av hrun runs hins db₁ hadm plan hplan h =>
    obtain ⟨_, rfl, _⟩ := transitionRun_ok hadm
    have hid : run.runId = id := by rw [hrun]; rfl
    rw [h.runs, Table.find?_insert? hins, if_neg (by rw [hid]; exact hq)]
  | move r r' shift event hfind hmove db₁ hset h _ =>
    have hid : r'.runId = id := hmove.runId_eq.trans (Table.key_of_find? hfind)
    rw [h.runs, settle_find?_ne hset (by rw [hid]; exact hq)]

/-- The loop of the reaper: one turn for each row it selected. -/
theorem reapAll_turns :
    ∀ {l : List AgentRun} {db db' : Db} {recovered : List String},
      (l.map AgentRun.runId).Nodup → LeaseService.reapAll now db l = .ok (db', recovered) →
      (∀ selected ∈ l, ∀ run, db.runs.find? selected.runId = some run →
        run.dispatchState = .claimed → run.LeaseExpired now →
        packageExecutable db run = true → causes .reap run) →
      Turns limits now causes (l.map AgentRun.runId) db db'
  | [], db, db', _, _, h, _ => by
    cases h
    exact .nil (.refl _)
  | selected :: rest, db, db', _, hnd, h, hc => by
    obtain ⟨⟨db₁, b⟩, hone, h⟩ := bind_ok.mp h
    obtain ⟨⟨db₂, others⟩, hrest, h⟩ := bind_ok.mp h
    obtain ⟨hnot, hnd'⟩ := List.nodup_cons.mp hnd
    have hturn : Turn limits now causes selected.runId db db₁ :=
      reapOne_turn hone (hc selected (List.mem_cons_self ..))
    cases h
    refine .cons hturn (reapAll_turns hnd' hrest ?_)
    intro other hmem run hfind hd hl hpk
    have hne : other.runId ≠ selected.runId := fun he =>
      hnot (he ▸ List.mem_map_of_mem hmem)
    rw [hturn.find?_ne hne] at hfind
    rw [packageExecutable_congr (reapOne_definitions hone)] at hpk
    exact hc other (List.mem_cons_of_mem _ hmem) run hfind hd hl hpk

theorem reapExpired_turns {db db' : Db} {recovered : List String}
    (h : LeaseService.reapExpired db now = .ok (db', recovered))
    (hc : ∀ run ∈ db.runs.rows, run.dispatchState = .claimed → run.LeaseExpired now →
      packageExecutable db run = true → causes .reap run) :
    ∃ ids, ids.Nodup ∧ Turns limits now causes ids db db' := by
  refine ⟨_, ?_, reapAll_turns ?_ h ?_⟩
  · exact db.runs.nodup.sublist (List.filter_sublist.map _)
  · exact db.runs.nodup.sublist (List.filter_sublist.map _)
  · intro _ _ run hfind
    exact hc run (Table.mem_of_find? hfind)

/-! ## The control plane -/

theorem ownedRun_ok {db : Db} {id caller : String} {auditor : Bool} {run : AgentRun}
    (h : AgentRunService.ownedRun db id caller auditor = .ok run) :
    db.runs.find? id = some run := by
  unfold AgentRunService.ownedRun at h
  split at h
  · cases h
  next r hfind =>
    split at h
    · cases h
    · cases h
      exact hfind

/-- A run that was accepted: its row, its slot and its plan. -/
theorem create_ok {db db' : Db} {id callerId tenantId : String} {command : CreateRunCommand}
    {authorizationVersion : Int}
    (h : AgentRunService.create limits db now id command callerId tenantId authorizationVersion
      = .ok db') :
    ∃ definition policy runs db₁ plan,
      db.runs.insert? (newRun id command definition policy callerId tenantId authorizationVersion
        now) = some runs ∧
      transitionRun limits { db with runs := runs }
        (newRun id command definition policy callerId tenantId authorizationVersion now) none
        (newRun id command definition policy callerId tenantId authorizationVersion
          now).dispatchState = .ok db₁ ∧
      createPlanFromDefinition id definition.definitionJson = .ok plan ∧
      SameLedger { db₁ with plans := db₁.plans ++ [plan] } db' := by
  unfold AgentRunService.create at h
  split at h
  · cases h
  next definition _ =>
    obtain ⟨_, _, h⟩ := bind_ok.mp h
    obtain ⟨_, _, h⟩ := bind_ok.mp h
    obtain ⟨_, _, h⟩ := bind_ok.mp h
    obtain ⟨policy, _, h⟩ := bind_ok.mp h
    obtain ⟨_, _, h⟩ := bind_ok.mp h
    simp only at h
    split at h
    · cases h
    next runs hins =>
      obtain ⟨db₁, hadm, h⟩ := bind_ok.mp h
      obtain ⟨plan, hplan, h⟩ := bind_ok.mp h
      cases h
      refine ⟨definition, policy, runs, db₁, plan, hins, hadm, hplan,
        SameLedger.trans ?_ (sameLedger_commit _)⟩
      split
      · exact sameLedger_dispatch _ _ _
      · exact .refl _

theorem create_turn {db db' : Db} {id callerId tenantId : String} {command : CreateRunCommand}
    {authorizationVersion : Int}
    (h : AgentRunService.create limits db now id command callerId tenantId authorizationVersion
      = .ok db') :
    Turn limits now causes id db db' := by
  obtain ⟨definition, policy, runs, db₁, plan, hins, hadm, hplan, hsame⟩ := create_ok h
  exact .create _ command definition policy callerId tenantId authorizationVersion rfl runs hins
    db₁ hadm plan hplan hsame

theorem startCheck_ok {db : Db} {resolver : Resolver} {run : AgentRun} {expected : Option Nat}
    {u : Unit} (h : AgentRunService.startCheck db now resolver run expected = .ok u) :
    run.privacyState = .active ∧ run.cancelRequestedAt = none ∧
      (run.dispatchState = .queued ∨ run.dispatchState = .claimed ∨
        (run.dispatchState = .held ∧ run.status = .pending)) := by
  unfold AgentRunService.startCheck at h
  obtain ⟨_, _, h⟩ := bind_ok.mp h
  obtain ⟨_, _, h⟩ := bind_ok.mp h
  obtain ⟨_, _, h⟩ := bind_ok.mp h
  obtain ⟨_, hact, h⟩ := bind_ok.mp h
  rw [require_ok] at hact
  refine ⟨hact.1, hact.2, ?_⟩
  split at h
  next hq => exact hq.elim Or.inl (fun hc => Or.inr (Or.inl hc))
  · obtain ⟨_, hheld, _⟩ := bind_ok.mp h
    rw [require_ok] at hheld
    exact Or.inr (Or.inr hheld)

theorem start_turn {db db' : Db} {resolver : Resolver} {id callerId : String}
    {expected : Option Nat}
    (h : AgentRunService.start limits db now resolver id callerId expected = .ok db') :
    Turn limits now causes id db db' := by
  unfold AgentRunService.start at h
  obtain ⟨run, hown, h⟩ := bind_ok.mp h
  obtain ⟨_, hcheck, h⟩ := bind_ok.mp h
  obtain ⟨hp, hc, hstate⟩ := startCheck_ok hcheck
  split at h
  · cases h
    exact .idle (.refl _)
  next hno =>
    obtain ⟨db₁, hadm, h⟩ := bind_ok.mp h
    cases h
    have hheld : run.dispatchState = .held ∧ run.status = .pending := by
      rcases hstate with hq | hcl | hheld
      · exact absurd (Or.inl hq) hno
      · exact absurd (Or.inr hcl) hno
      · exact hheld
    exact .move run _ _ none (ownedRun_ok hown) (.start hheld.1 hheld.2 hp hc) db₁
      (settle_shift hadm) ((sameLedger_dispatch db₁ _ _).trans (sameLedger_commit _))
      fun hnot hpurged => absurd hpurged hnot

theorem cancel_turn {db db' : Db} {id callerId : String}
    (h : AgentRunService.cancel limits db now id callerId = .ok db') :
    Turn limits now causes id db db' := by
  unfold AgentRunService.cancel at h
  obtain ⟨run, hown, h⟩ := bind_ok.mp h
  split at h
  next hun =>
    obtain ⟨db₁, hadm, h⟩ := bind_ok.mp h
    obtain ⟨db₂, hcb, h⟩ := bind_ok.mp h
    cases h
    exact .move run _ _ _ (ownedRun_ok hown) (.cancelNow hun) db₂ (settle_both hadm hcb)
      (sameLedger_commit db₂) fun hnot hpurged => absurd hpurged hnot
  next hun =>
    cases h
    exact (turn_put (ownedRun_ok hown) (.requestCancel hun) fun h => h).same (sameLedger_commit _)

theorem purge_turn {db db' : Db} {id callerId : String}
    (h : AgentRunService.purge db now id callerId = .ok db') :
    Turn limits now causes id db db' := by
  unfold AgentRunService.purge at h
  obtain ⟨run, hown, h⟩ := bind_ok.mp h
  split at h
  next hact =>
    cases h
    exact (turn_put (ownedRun_ok hown) (.requestPurge hact) fun h => (by cases h)).same
      (sameLedger_commit _)
  · cases h
    exact .idle (.refl _)

theorem retryCheck_ok {db : Db} {resolver : Resolver} {run : AgentRun} {expected : Option Nat}
    {u : Unit} (h : AgentRunService.retryCheck db resolver run expected = .ok u) :
    (run.status = .failed ∨ run.status = .partialSucceeded) ∧ run.manualRetryCount < 3 ∧
      run.privacyState = .active := by
  unfold AgentRunService.retryCheck at h
  obtain ⟨_, _, h⟩ := bind_ok.mp h
  obtain ⟨_, _, h⟩ := bind_ok.mp h
  obtain ⟨_, hst, h⟩ := bind_ok.mp h
  obtain ⟨_, hact, _⟩ := bind_ok.mp h
  rw [require_ok] at hst hact
  exact ⟨hst.1, hst.2, hact⟩

theorem retry_turn {db db' : Db} {resolver : Resolver} {id callerId : String} {auditor : Bool}
    {expected : Option Nat}
    (h : AgentRunService.retry limits db now resolver id callerId auditor expected = .ok db')
    (hc : ∀ run, AgentRunService.ownedRun db id callerId auditor = .ok run →
      AgentRunService.retryCheck db resolver run expected = .ok () → causes .retry run) :
    Turn limits now causes id db db' := by
  unfold AgentRunService.retry at h
  obtain ⟨run, hown, h⟩ := bind_ok.mp h
  obtain ⟨_, hcheck, h⟩ := bind_ok.mp h
  obtain ⟨db₁, hadm, h⟩ := bind_ok.mp h
  obtain ⟨hst, hn, hp⟩ := retryCheck_ok hcheck
  cases h
  exact .move run _ _ none (ownedRun_ok hown)
    (.retry hst hn hp (hc run hown hcheck)) db₁ (settle_shift hadm)
    ((sameLedger_dispatch db₁ _ _).trans (sameLedger_commit _))
    fun hnot hpurged => absurd hpurged hnot

theorem approve_turn {db db' : Db} {id callerId decision : String} {expected : Nat}
    (h : AgentRunService.approve limits db now id callerId decision expected = .ok db')
    (hc : ∀ run, AgentRunService.ownedRun db id callerId = .ok run →
      run.statusVersion = expected →
      AgentRunService.assertFrozenPackageDefinition db run "approve" = .ok () →
      (decision = "approve" ∨ AgentRunService.rejectsToFallback db id = true) →
      run.status = .waitingHuman → run.dispatchState = .finished → causes .approve run) :
    Turn limits now causes id db db' := by
  unfold AgentRunService.approve at h
  obtain ⟨run, hown, h⟩ := bind_ok.mp h
  obtain ⟨_, hst, h⟩ := bind_ok.mp h
  obtain ⟨_, hpk, h⟩ := bind_ok.mp h
  rw [require_ok] at hst
  obtain ⟨hs, hd, hv⟩ := hst
  have hfind := ownedRun_ok hown
  split at h
  next happ =>
    obtain ⟨db₁, hadm, h⟩ := bind_ok.mp h
    cases h
    exact .move run _ _ none hfind (.approve hs hd (hc run hown hv hpk (Or.inl happ) hs hd) _)
      db₁ (settle_shift hadm) ((sameLedger_dispatch db₁ _ _).trans (sameLedger_commit _))
      fun hnot hpurged => absurd hpurged hnot
  next =>
    split at h
    next hfall =>
      obtain ⟨db₁, hadm, h⟩ := bind_ok.mp h
      cases h
      exact .move run _ _ none hfind
        (.approve hs hd (hc run hown hv hpk (Or.inr hfall) hs hd) _) db₁ (settle_shift hadm)
        ((sameLedger_dispatch db₁ _ _).trans (sameLedger_commit _))
        fun hnot hpurged => absurd hpurged hnot
    next =>
      obtain ⟨db₁, hcb, h⟩ := bind_ok.mp h
      cases h
      exact .move run _ none _ hfind (.reject hs hd) db₁ (settle_event hcb)
        (sameLedger_commit db₁) fun hnot hpurged => absurd hpurged hnot

end AgentRuntime
