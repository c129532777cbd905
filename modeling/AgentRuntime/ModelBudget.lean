import AgentRuntime.UsageSessions
import AgentRuntime.CallbackStream

/-!
# The budget of model calls

`reserve` reads the budget in one statement and takes its slot in another.
What ties the two together is the run's status version: it never goes back,
every reservation raises it, and the second statement asks for the version
the first one read. So a reservation commits only where none has come
between, and the count it read is still the count (`Ready`). Cancelling and
settling only take rows away or leave them be (`Thins`), and nothing in the
lifecycle of a run changes its frozen limits.
-/

namespace AgentRuntime

open Keyed Runs Interleave

/-- The calls of a run: its rows that are no images. -/
def modelRows (usages : UsageTable) (q : String) : Nat :=
  usages.rows.countP (fun u => u.runId = q ∧ u.imageCount = none)

/-- Two rows of one attempt: everything but what a call may change. -/
structure SameAttempt (a b : AgentModelUsage) : Prop where
  usageId : b.usageId = a.usageId
  runId : b.runId = a.runId
  stepId : b.stepId = a.stepId
  executionAttempt : b.executionAttempt = a.executionAttempt
  modelAttempt : b.modelAttempt = a.modelAttempt
  imageCount : b.imageCount = a.imageCount

theorem SameAttempt.refl (a : AgentModelUsage) : SameAttempt a a :=
  ⟨rfl, rfl, rfl, rfl, rfl, rfl⟩

/-- The calls of `t'` are calls of `t`. -/
structure Thins (t t' : UsageTable) : Prop where
  count : ∀ q, modelRows t' q ≤ modelRows t q
  row : ∀ b ∈ t'.rows, b.imageCount = none → ∃ a ∈ t.rows, SameAttempt a b

theorem Thins.refl (t : UsageTable) : Thins t t :=
  ⟨fun _ => Nat.le_refl _, fun b hb _ => ⟨b, hb, .refl b⟩⟩

theorem thins_update (t : UsageTable) (k : Nat) (p : AgentModelUsage → Prop) [DecidablePred p]
    {f : AgentModelUsage → AgentModelUsage} (hf : ∀ r, SameAttempt r (f r)) :
    Thins t (t.updateWhere k p f).1 := by
  rcases t.updateWhere_cases k p f with ⟨r, hfind, _, heq⟩ | ⟨_, heq⟩
  · rw [heq]
    have hkey : (f r).usageId = k := (hf r).usageId.trans (Table.key_of_find? hfind)
    refine ⟨fun q => ?_, fun b hb _ => ?_⟩
    · have hcount := Table.countP_put (fun u => decide (u.runId = q ∧ u.imageCount = none))
        (a := f r) (hkey.symm ▸ hfind)
      rw [(hf r).runId, (hf r).imageCount] at hcount
      exact Nat.le_of_eq (Nat.add_right_cancel hcount)
    · obtain ⟨a, ha, rfl⟩ := List.mem_map.mp hb
      split
      · exact ⟨r, Table.mem_of_find? hfind, hf r⟩
      · exact ⟨a, ha, .refl a⟩
  · rw [heq]
    exact .refl t

theorem thins_delete (t : UsageTable) (k : Nat) (p : AgentModelUsage → Prop) [DecidablePred p] :
    Thins t (t.deleteWhere k p).1 := by
  rcases t.deleteWhere_cases k p with ⟨r, _, _, heq⟩ | ⟨_, heq⟩
  · rw [heq]
    refine ⟨fun q => Table.countP_erase_le _ t k, fun b hb _ => ?_⟩
    exact ⟨b, (List.mem_filter.mp hb).1, .refl b⟩
  · rw [heq]
    exact .refl t

theorem sameAttempt_expire (r : AgentModelUsage) (current : Time) :
    SameAttempt r (r.expire current) := by
  unfold AgentModelUsage.expire
  split
  · exact ⟨rfl, rfl, rfl, rfl, rfl, rfl⟩
  · exact .refl r

theorem thins_expire (t : UsageTable) (current : Time) :
    Thins t (ModelUsageService.markExpiredRunningUnknown t current) := by
  refine ⟨fun q => ?_, fun b hb _ => ?_⟩
  · show (t.rows.map _).countP _ ≤ _
    rw [List.countP_map]
    refine Nat.le_of_eq (List.countP_congr fun r _ => ?_)
    simp [(sameAttempt_expire r current).runId, (sameAttempt_expire r current).imageCount]
  · obtain ⟨a, ha, rfl⟩ := List.mem_map.mp hb
    exact ⟨a, ha, sameAttempt_expire a current⟩

theorem thins_image {t t' : UsageTable} {u : AgentModelUsage} (hins : t.insert? u = some t')
    (hu : u.imageCount ≠ none) : Thins t t' := by
  refine ⟨fun q => ?_, fun b hb hnone => ?_⟩
  · unfold modelRows
    rw [Table.countP_insert? _ hins]
    simp [hu]
  · rw [(Table.insert?_eq_some.mp hins).2] at hb
    rcases List.mem_append.mp hb with hold | hnew
    · exact ⟨b, hold, .refl b⟩
    · rw [List.mem_singleton.mp hnew] at hnone
      exact absurd hnone hu

/-! ## What a statement does to the calls -/

/-- A run goes on: its version does not go back, its limits stay. -/
structure GoesOn (r r' : AgentRun) : Prop where
  version : r.statusVersion ≤ r'.statusVersion
  policy : r'.modelPolicy = r.modelPolicy

theorem Move.modelPolicy_eq {limits : AdmissionLimits} {now : Time}
    {causes : Cause → AgentRun → Prop} {r r' : AgentRun} {shift : Shift} {event : Option String}
    (h : Move limits now causes r r' shift event) : r'.modelPolicy = r.modelPolicy := by
  cases h <;> rfl

/-- An operation of the lifecycle lets every run go on. -/
theorem step_goesOn (limits : AdmissionLimits) (s : Sys) (e : Event) {q : String} {r : AgentRun}
    (hfind : s.db.runs.find? q = some r) :
    ∃ r', (step limits s e).db.runs.find? q = some r' ∧ GoesOn r r' := by
  cases step_runStep limits s e q with
  | same h => exact ⟨r, h.row.trans hfind, Nat.le_refl _, rfl⟩
  | created hnone => exact absurd (hnone.symm.trans hfind) (by simp)
  | moved r₀ r' shift event hfind₀ hmove hrow =>
    cases hfind₀.symm.trans hfind
    refine ⟨_, hrow, ?_, ?_⟩
    · cases event <;> exact hmove.statusVersion_le
    · cases event <;> exact hmove.modelPolicy_eq

/-- What a statement does to the ledger and to the runs. -/
inductive Effect (limits : AdmissionLimits) (s : Sessions) (c : Statement) : Sessions → Prop
  | rows (s' : Sessions) (hsys : s'.sys = s.sys) (hres : s'.reservations = s.reservations)
      (h : Thins s.usages s'.usages) : Effect limits s c s'
  | lifecycle (e : Event) : Effect limits s c { s with sys := step limits s.sys e }
  | reserved (s' : Sessions) (ctx : ModelCallContext) (route : ModelRoute)
      (tries version after : Nat) (hc : c = .reserveWrite ctx route tries version after)
      (run : AgentRun) (hfind : s.sys.db.runs.find? ctx.runId = some run)
      (hversion : run.statusVersion = version)
      (hins : s.usages.insert? (PolicyEngine.newUsage s.usages ctx route s.drawn)
        = some s'.usages)
      (hruns : s'.sys.db.runs = s.sys.db.runs.put run.bumpVersion)
      (hres : s'.reservations
        = s.reservations ++ [⟨s.drawn, ctx.runId, version, after⟩]) : Effect limits s c s'

theorem exec_effect (limits : AdmissionLimits) (s : Sessions) (c : Statement) :
    Effect limits s c (Sessions.exec limits s c).1 := by
  have hsame : Effect limits s c s := .rows s rfl rfl (.refl _)
  cases c with
  | reserveRead ctx route tries =>
    simp only [Sessions.exec]
    split <;> exact hsame
  | reserveWrite ctx route tries version after =>
    simp only [Sessions.exec, Sessions.reserveWrite]
    split
    · exact hsame
    · exact hsame
    next l hl =>
      obtain ⟨run, hfind, hguard, usages, hins, rfl⟩ := PolicyEngine.reserveWrite_ok hl
      exact .reserved _ ctx route tries version after rfl run hfind hguard.1 hins rfl rfl
  | settleRead usageId settlement =>
    simp only [Sessions.exec]
    split <;> exact hsame
  | settleWrite p =>
    exact .rows _ rfl rfl (thins_update s.usages p.usageId _ fun r => ⟨rfl, rfl, rfl, rfl, rfl, rfl⟩)
  | once op =>
    show Effect limits s _ (s.once limits op)
    cases op with
    | reserve => exact hsame
    | settle => exact hsame
    | activateReservation usageId permitId =>
      exact .rows _ rfl rfl (thins_update s.usages usageId _ fun r => ⟨rfl, rfl, rfl, rfl, rfl, rfl⟩)
    | markStarted usageId =>
      exact .rows _ rfl rfl (thins_update s.usages usageId _ fun r => ⟨rfl, rfl, rfl, rfl, rfl, rfl⟩)
    | cancelReservation usageId => exact .rows _ rfl rfl (thins_delete s.usages usageId _)
    | markExpired current => exact .rows _ rfl rfl (thins_expire s.usages current)
    | recordImage runId executionAttempt succeeded =>
      simp only [Sessions.once]
      split
      · exact hsame
      next usages hins => exact .rows _ rfl rfl (thins_image hins (by simp [Sessions.imageUsage]))
    | lifecycle op => exact .lifecycle { op := op }
  | done => exact hsame

/-! ## The invariant -/

/-- The limit a run froze on its model calls. -/
def maxModelCalls (run : AgentRun) : Option Int :=
  nonnegativeInt run.modelPolicy.maxModelCalls

/-- Every run is within its limit, and one that does not exist has called
nothing. -/
def WithinCalls (s : Sessions) : Prop :=
  ∀ q, (s.sys.db.runs.find? q = none → modelRows s.usages q = 0) ∧
    ∀ run, s.sys.db.runs.find? q = some run → ∀ n, maxModelCalls run = some n →
      modelRows s.usages q ≤ n

/-- Every reservation of a run was committed on a budget that was read after
all the reservations before it. -/
def Serial (s : Sessions) : Prop :=
  ∀ q, (s.reservationsOf q).map (·.after) = List.range (s.reservationsOf q).length

/-- The attempt numbers of the calls of one step in one execution differ. -/
def AttemptsDiffer (s : Sessions) : Prop :=
  ∀ a ∈ s.usages.rows, ∀ b ∈ s.usages.rows, a.imageCount = none → b.imageCount = none →
    a.runId = b.runId → a.stepId = b.stepId → a.executionAttempt = b.executionAttempt →
    a.modelAttempt = b.modelAttempt → a = b

structure BudgetInv (s : Sessions) : Prop where
  within : WithinCalls s
  serial : Serial s
  attempts : AttemptsDiffer s

/-- What a reservation has read still holds while the version it read does:
none has been committed since, and there is a slot. -/
def Ready (s : Sessions) (c : Statement) : Prop :=
  match c with
  | .reserveWrite ctx _ _ version after =>
    ∃ run, s.sys.db.runs.find? ctx.runId = some run ∧ version ≤ run.statusVersion ∧
      (run.statusVersion = version → after = (s.reservationsOf ctx.runId).length ∧
        ∀ n, maxModelCalls run = some n → modelRows s.usages ctx.runId < n)
  | _ => True

theorem modelRows_le_rowsOf (usages : UsageTable) (q : String) :
    modelRows usages q ≤ (PolicyEngine.rowsOf usages q).length := by
  unfold modelRows PolicyEngine.rowsOf
  rw [← List.countP_eq_length_filter]
  exact List.countP_mono_left fun u _ h => by simp_all

/-- A read that lets the reservation go on has found a free slot. -/
theorem slot_of_evaluateBudget {run : AgentRun} {usages : UsageTable} {ctx : ModelCallContext}
    {route : ModelRoute} (h : PolicyEngine.evaluateBudget run usages ctx route = .ok ())
    {n : Int} (hn : maxModelCalls run = some n) : modelRows usages run.runId < n := by
  have hle := modelRows_le_rowsOf usages run.runId
  unfold PolicyEngine.evaluateBudget at h
  simp only at h
  split at h
  · cases h
  next hover =>
    rw [show nonnegativeInt run.modelPolicy.maxModelCalls = some n from hn] at hover
    have : ¬ n ≤ ((PolicyEngine.rowsOf usages run.runId).length : Int) := by simpa using hover
    omega

theorem ready_exec (limits : AdmissionLimits) (s : Sessions) (c : Statement) :
    Ready (Sessions.exec limits s c).1 (Sessions.exec limits s c).2 := by
  cases c with
  | reserveRead ctx route tries =>
    simp only [Sessions.exec]
    split
    · trivial
    next version hread =>
      obtain ⟨run, hfind, _, hbudget, rfl⟩ := PolicyEngine.reserveRead_ok hread
      refine ⟨run, hfind, Nat.le_refl _, fun _ => ⟨rfl, fun n hn => ?_⟩⟩
      have hid := Table.key_of_find? hfind
      rw [← hid]
      exact slot_of_evaluateBudget hbudget hn
  | reserveWrite ctx route tries version after =>
    simp only [Sessions.exec, Sessions.reserveWrite]
    split
    · trivial
    · split <;> trivial
    · trivial
  | settleRead usageId settlement =>
    simp only [Sessions.exec]
    split <;> trivial
  | settleWrite p => trivial
  | once op => trivial
  | done => trivial

/-! ## The invariant is kept -/

theorem reservationsOf_append (s s' : Sessions) (r : Reservation) (q : String)
    (h : s'.reservations = s.reservations ++ [r]) :
    s'.reservationsOf q = s.reservationsOf q ++ (if r.runId = q then [r] else []) := by
  unfold Sessions.reservationsOf
  rw [h, List.filter_append]
  by_cases hq : r.runId = q <;> simp [hq]

/-- The new row's attempt is past those the step has in this execution. -/
theorem nextAttempt_gt {usages : UsageTable} {ctx : ModelCallContext} {u : AgentModelUsage}
    (hu : u ∈ usages.rows) (hrun : u.runId = ctx.runId) (hstep : u.stepId = ctx.stepId)
    (hattempt : u.executionAttempt = ctx.leaseContext.executionAttempt) :
    u.modelAttempt < PolicyEngine.nextAttempt usages ctx := by
  have hmem : u.modelAttempt ∈ PolicyEngine.attemptsOf usages ctx :=
    List.mem_map_of_mem (List.mem_filter.mpr ⟨hu, by simp [hrun, hstep, hattempt]⟩)
  unfold PolicyEngine.nextAttempt
  cases hmax : (PolicyEngine.attemptsOf usages ctx).max? with
  | none =>
    rw [List.max?_eq_none_iff.mp hmax] at hmem
    cases hmem
  | some previous =>
    have hle := (List.max?_eq_some_iff.mp hmax).2 _ hmem
    simp only
    omega

/-- Rows only thinned keep the attempts apart. -/
theorem attemptsDiffer_thins {s s' : Sessions} (h : Thins s.usages s'.usages)
    (hs : AttemptsDiffer s) : AttemptsDiffer s' := by
  intro a' ha' b' hb' hna hnb hrun hstep hexec hattempt
  obtain ⟨a, ha, hsa⟩ := h.row a' ha' hna
  obtain ⟨b, hb, hsb⟩ := h.row b' hb' hnb
  have hab : a = b := hs a ha b hb (hsa.imageCount ▸ hna) (hsb.imageCount ▸ hnb)
    (hsa.runId ▸ hsb.runId ▸ hrun) (hsa.stepId ▸ hsb.stepId ▸ hstep)
    (hsa.executionAttempt ▸ hsb.executionAttempt ▸ hexec)
    (hsa.modelAttempt ▸ hsb.modelAttempt ▸ hattempt)
  subst hab
  exact List.inj_on_of_nodup_map s'.usages.nodup ha' hb' (hsa.usageId.trans hsb.usageId.symm)

/-- A row with a fresh attempt keeps them apart. -/
theorem attemptsDiffer_insert {s : Sessions} {t : UsageTable} {ctx : ModelCallContext}
    {route : ModelRoute} {usageId : Nat}
    (hins : s.usages.insert? (PolicyEngine.newUsage s.usages ctx route usageId) = some t)
    (hs : AttemptsDiffer s) {s' : Sessions} (hs' : s'.usages = t) : AttemptsDiffer s' := by
  have hrows := (Table.insert?_eq_some.mp hins).2
  have hnew : ∀ u ∈ s.usages.rows, u.runId = ctx.runId → u.stepId = ctx.stepId →
      u.executionAttempt = ctx.leaseContext.executionAttempt →
      u.modelAttempt ≠ PolicyEngine.nextAttempt s.usages ctx := fun u hu h₁ h₂ h₃ h =>
    absurd h (Nat.ne_of_lt (nextAttempt_gt hu h₁ h₂ h₃))
  intro a ha b hb hna hnb hrun hstep hexec hattempt
  rw [hs', hrows] at ha hb
  rcases List.mem_append.mp ha with ha | ha <;> rcases List.mem_append.mp hb with hb | hb
  · exact hs a ha b hb hna hnb hrun hstep hexec hattempt
  · cases List.mem_singleton.mp hb
    exact absurd hattempt (hnew a ha hrun hstep hexec)
  · cases List.mem_singleton.mp ha
    exact absurd hattempt.symm (hnew b hb hrun.symm hstep.symm hexec.symm)
  · rw [List.mem_singleton.mp ha, List.mem_singleton.mp hb]

/-- A reservation takes one slot of its run. -/
theorem modelRows_reserved {s : Sessions} {t : UsageTable} {ctx : ModelCallContext}
    {route : ModelRoute} {usageId : Nat}
    (hins : s.usages.insert? (PolicyEngine.newUsage s.usages ctx route usageId) = some t)
    (q : String) : modelRows t q = modelRows s.usages q + (if ctx.runId = q then 1 else 0) := by
  unfold modelRows
  rw [Table.countP_insert? _ hins]
  by_cases hq : ctx.runId = q <;> simp [PolicyEngine.newUsage, hq]

/-- The run table after a reservation. -/
theorem find?_reserved {runs : RunTable} {run : AgentRun} {id : String}
    (hfind : runs.find? id = some run) (q : String) :
    (runs.put run.bumpVersion).find? q
      = if q = id then some run.bumpVersion else runs.find? q := by
  have hid : run.bumpVersion.runId = id := Table.key_of_find? (a := run) hfind
  rw [Table.find?_put, hid]
  by_cases hq : q = id
  · rw [if_pos hq, if_pos hq, hq, hfind]
    rfl
  · rw [if_neg hq, if_neg hq]

/-- The commit of a reservation that found a slot. -/
theorem within_reserved {s s' : Sessions} {ctx : ModelCallContext} {route : ModelRoute}
    {run : AgentRun} (hI : WithinCalls s) (hfind : s.sys.db.runs.find? ctx.runId = some run)
    (hslot : ∀ n, maxModelCalls run = some n → modelRows s.usages ctx.runId < n)
    (hins : s.usages.insert? (PolicyEngine.newUsage s.usages ctx route s.drawn) = some s'.usages)
    (hruns : s'.sys.db.runs = s.sys.db.runs.put run.bumpVersion) : WithinCalls s' := by
  intro q
  rw [hruns, modelRows_reserved hins, find?_reserved hfind]
  by_cases hq : ctx.runId = q
  · subst hq
    rw [if_pos rfl, if_pos rfl]
    refine ⟨by simp, fun run' hrun' n hn => ?_⟩
    cases hrun'
    have := hslot n hn
    omega
  · rw [if_neg hq, if_neg (fun h => hq h.symm)]
    exact hI q

theorem within_kept {s s' : Sessions} (hI : WithinCalls s)
    (hcount : ∀ q, modelRows s'.usages q ≤ modelRows s.usages q)
    (hback : ∀ q, s'.sys.db.runs.find? q = none → s.sys.db.runs.find? q = none)
    (hruns : ∀ q run', s'.sys.db.runs.find? q = some run' →
      s.sys.db.runs.find? q = none ∨
        ∃ run, s.sys.db.runs.find? q = some run ∧ run'.modelPolicy = run.modelPolicy) :
    WithinCalls s' := by
  intro q
  refine ⟨fun hnone => ?_, fun run' hrun' n hn => ?_⟩
  · have := (hI q).1 (hback q hnone)
    have := hcount q
    omega
  · have hle := hcount q
    rcases hruns q run' hrun' with hnone | ⟨run, hrun, hpolicy⟩
    · have hzero := (hI q).1 hnone
      have hn' : 0 ≤ n := by
        have := (Option.filter_eq_some_iff.mp hn).2
        simpa using this
      omega
    · have := (hI q).2 run hrun n (by unfold maxModelCalls at hn ⊢; rw [← hpolicy]; exact hn)
      omega

theorem serial_reserved {s s' : Sessions} {r : Reservation} (hI : Serial s)
    (hafter : r.after = (s.reservationsOf r.runId).length)
    (hres : s'.reservations = s.reservations ++ [r]) : Serial s' := by
  intro q
  rw [reservationsOf_append s s' r q hres]
  by_cases hq : r.runId = q
  · subst hq
    rw [if_pos rfl, List.map_append, hI, List.length_append, List.map_singleton, hafter,
      List.length_singleton, List.range_succ]
  · rw [if_neg hq, List.append_nil]
    exact hI q

theorem reservationsOf_congr {s s' : Sessions} (h : s'.reservations = s.reservations)
    (q : String) : s'.reservationsOf q = s.reservationsOf q := by
  unfold Sessions.reservationsOf
  rw [h]

theorem budgetInv_exec {limits : AdmissionLimits} {s : Sessions} {c : Statement}
    (hI : BudgetInv s) (hJ : Ready s c) : BudgetInv (Sessions.exec limits s c).1 := by
  have heffect := exec_effect limits s c
  generalize (Sessions.exec limits s c).1 = s₁ at heffect
  cases heffect with
  | rows s' hsys hres h =>
    refine ⟨within_kept hI.within h.count (fun q hq => ?_) (fun q run' hrun' => ?_), fun q => ?_,
      attemptsDiffer_thins h hI.attempts⟩
    · rwa [hsys] at hq
    · rw [hsys] at hrun'
      exact Or.inr ⟨run', hrun', rfl⟩
    · rw [reservationsOf_congr hres]
      exact hI.serial q
  | lifecycle e =>
    refine ⟨within_kept hI.within (fun _ => Nat.le_refl _) (fun q hq => ?_) (fun q run' hrun' => ?_),
      hI.serial, hI.attempts⟩
    · cases hfind : s.sys.db.runs.find? q with
      | none => rfl
      | some run =>
        obtain ⟨run', hrun', _⟩ := step_goesOn limits s.sys e hfind
        exact absurd (hq.symm.trans hrun') (by simp)
    · cases hfind : s.sys.db.runs.find? q with
      | none => exact Or.inl rfl
      | some run =>
        obtain ⟨run'', hrun'', hgo⟩ := step_goesOn limits s.sys e hfind
        cases hrun''.symm.trans hrun'
        exact Or.inr ⟨run, rfl, hgo.policy⟩
  | reserved s' ctx route tries version after hc run hfind hversion hins hruns hres =>
    subst hc
    obtain ⟨run', hfind', _, hready⟩ := hJ
    cases hfind'.symm.trans hfind
    obtain ⟨hafter, hslot⟩ := hready hversion
    exact ⟨within_reserved hI.within hfind hslot hins hruns, serial_reserved hI.serial hafter hres,
      attemptsDiffer_insert hins hI.attempts rfl⟩

/-- No statement disturbs what another session's reservation has read, but
by raising the version. -/
theorem ready_spares {limits : AdmissionLimits} {s : Sessions} {c d : Statement}
    (hd : Ready s d) : Ready (Sessions.exec limits s c).1 d := by
  cases d with
  | reserveWrite ctx route tries version after =>
    obtain ⟨run, hfind, hle, hready⟩ := hd
    have heffect := exec_effect limits s c
    generalize (Sessions.exec limits s c).1 = s₁ at heffect
    cases heffect with
    | rows s' hsys hres h =>
      refine ⟨run, hsys ▸ hfind, hle, fun hversion => ?_⟩
      obtain ⟨hafter, hslot⟩ := hready hversion
      refine ⟨by rw [reservationsOf_congr hres]; exact hafter, fun n hn => ?_⟩
      have := h.count ctx.runId
      have := hslot n hn
      omega
    | lifecycle e =>
      obtain ⟨run', hfind', hgo⟩ := step_goesOn limits s.sys e hfind
      refine ⟨run', hfind', hle.trans hgo.version, fun hversion => ?_⟩
      have hsame : run.statusVersion = version := by
        have := hgo.version
        omega
      unfold maxModelCalls at hready ⊢
      rw [hgo.policy]
      exact hready hsame
    | reserved s' ctx' route' tries' version' after' hc run' hfind' hversion' hins hruns hres =>
      have hrow := find?_reserved hfind' ctx.runId
      rw [← hruns] at hrow
      by_cases hq : ctx.runId = ctx'.runId
      · rw [if_pos hq] at hrow
        rw [hq] at hfind
        cases hfind.symm.trans hfind'
        refine ⟨_, hrow, Nat.le_succ_of_le hle, fun hversion => ?_⟩
        have : run.statusVersion + 1 = version := hversion
        omega
      · rw [if_neg hq] at hrow
        refine ⟨run, hrow.trans hfind, hle, fun hversion => ?_⟩
        rw [reservationsOf_append s s₁ _ _ hres, modelRows_reserved hins,
          if_neg (fun h => hq h.symm), if_neg (fun h => hq h.symm), List.append_nil]
        exact hready hversion
  | _ => trivial

theorem budget_outline (limits : AdmissionLimits) :
    Outline (Sessions.program limits) (fun _ _ => True) BudgetInv Ready where
  wait s t h := ⟨h.within, h.serial, h.attempts⟩
  waits s t c h := by
    cases c <;> exact h
  call s op c _ hcall := by
    cases hcall
    cases op <;> trivial
  exec s c hI hJ _ := ⟨budgetInv_exec hI hJ, ready_exec limits s c⟩
  spares s c d _ _ _ hd := ready_spares hd

/-- **The budget of model calls.** From a ledger without rows, whatever the
runs are, sessions that reserve, cancel, activate, start, settle and expire
model calls in any order, and runs that go through their lifecycle
meanwhile: no run ever has more calls than it froze; a reservation commits
only on a budget read after all the run's reservations before it, so two
that read the same free slot do not both succeed; and the attempt numbers of
one step in one execution differ. -/
theorem PolicyEngine.reserve_within_budget (limits : AdmissionLimits) (sys : Sys)
    (es : List (Interleave.Event UsageOp)) :
    BudgetInv (Runs.run (Sessions.program limits).step (Sessions.fresh sys) es).shared := by
  refine ((budget_outline limits).run es _ ?_ (meets_true es _)).1
  refine ⟨⟨fun q => ⟨fun _ => rfl, fun run _ n hn => ?_⟩, fun _ => rfl, by simp [AttemptsDiffer,
    Sessions.fresh]⟩, by simp [Sessions.fresh]⟩
  have := (Option.filter_eq_some_iff.mp hn).2
  simpa [Sessions.fresh, modelRows] using this

end AgentRuntime
