import AgentRuntime.RunWorkers
import Mathlib.Data.List.Induction

/-!
# What later attempts find of earlier ones

Every save adds a checkpoint of its own: its key has the number of the attempt
and of the step (`checkpointKey_inj`), and no earlier attempt can save any more.
So the checkpoint to resume from is the one that was saved last
(`saves_append`).

What was completed then stays done (`done_once`): if every attempt that follows
the checkpoint of a node that must not be repeated is a resumed one, no later
attempt of the run gives the node to its runner again. `CheckpointsStored` is what holds of
the checkpoints at any time, `Remembered` what holds as long as attempts resume.
-/

namespace AgentRuntime

open Keyed Runs

variable {limits : AdmissionLimits}

/-! ## The keys of the checkpoints -/

theorem checkpointKey_toList (executionAttempt completedSteps : Nat) :
    (checkpointKey executionAttempt completedSteps).toList = "attempt:".toList ++
      (Nat.toDigits 10 executionAttempt ++ ':' :: ("step:".toList ++
        Nat.toDigits 10 completedSteps)) := by
  unfold checkpointKey
  simp [String.toList_append, Nat.repr, toString, ToString.toString]

theorem takeWhile_toDigits (n : Nat) (rest : List Char) :
    (Nat.toDigits 10 n ++ ':' :: rest).takeWhile (fun c => decide (c ≠ ':'))
      = Nat.toDigits 10 n := by
  have hall : ∀ c ∈ Nat.toDigits 10 n, decide (c ≠ ':') = true := fun c hc => by
    have hdigit := Nat.isDigit_of_mem_toDigits (by omega) (by omega) hc
    refine decide_eq_true fun heq => ?_
    rw [heq] at hdigit
    exact absurd hdigit (by decide)
  rw [List.takeWhile_append_of_pos hall]
  simp

theorem toDigits_inj {m n : Nat} (h : Nat.toDigits 10 m = Nat.toDigits 10 n) : m = n := by
  rw [← Nat.ofDigitChars_ten_toDigits (n := m), h, Nat.ofDigitChars_ten_toDigits]

/-- A key gives the attempt and the step. -/
theorem checkpointKey_inj {a a' k k' : Nat} (h : checkpointKey a k = checkpointKey a' k') :
    a = a' ∧ k = k' := by
  have hlist := congrArg String.toList h
  rw [checkpointKey_toList, checkpointKey_toList] at hlist
  have hrest := List.append_cancel_left hlist
  have hdigits : Nat.toDigits 10 a = Nat.toDigits 10 a' := by
    rw [← takeWhile_toDigits a, hrest, takeWhile_toDigits]
  have ha : a = a' := toDigits_inj hdigits
  subst ha
  have hsteps := List.append_cancel_left hrest
  rw [List.cons.injEq] at hsteps
  exact ⟨rfl, toDigits_inj (List.append_cancel_left hsteps.2)⟩

/-! ## What is stored -/

/-- What holds of the checkpoints at any time: what they said is known to the
worker that saved them, and their keys are of steps that workers have done. -/
structure CheckpointsStored (c : Crew) : Prop where
  manned : Manned c.fleet
  orderly : Orderly c.fleet
  known : ∀ g ∈ c.checkpointed, ∃ w ∈ c.fleet.workers, w.runId = g.runId ∧
    w.executionAttempt = g.executionAttempt ∧ g.nodeId ∈ w.state.completedNodeIds
  keyed : ∀ row ∈ c.fleet.sys.db.checkpoints, ∃ w ∈ c.fleet.workers, w.runId = row.runId ∧
    ∃ k ≤ w.state.completedSteps, row.checkpointKey = checkpointKey w.executionAttempt k
  ordered : c.fleet.sys.db.checkpoints.Pairwise fun a b => a.createdAt ≤ b.createdAt
  past : ∀ row ∈ c.fleet.sys.db.checkpoints, row.createdAt ≤ c.fleet.sys.clock

/-- The worker after some visits. -/
structure GoesFurther (w w' : PlanWorker) : Prop where
  runId : w'.runId = w.runId
  executionAttempt : w'.executionAttempt = w.executionAttempt
  plan : w'.plan = w.plan
  ids : ∀ x ∈ w.state.completedNodeIds, x ∈ w'.state.completedNodeIds
  steps : w.state.completedSteps ≤ w'.state.completedSteps

theorem GoesFurther.refl (w : PlanWorker) : GoesFurther w w :=
  ⟨rfl, rfl, rfl, fun _ h => h, Nat.le_refl _⟩

theorem visited_further (w : PlanWorker) (run : AgentRun) (node : PlanNode) (rest : List PlanNode)
    (turn : NodeTurn) : GoesFurther w (w.visited run node rest turn) := by
  have hsaves := (w.meets turn).visit_saves { w.state with run := run } node
  exact ⟨rfl, rfl, rfl, hsaves.ids, hsaves.steps⟩

/-- After a visit every worker is there, and has gone further at most. -/
theorem visits_further {workers : List PlanWorker} {j : Nat} {w w' : PlanWorker}
    (hw : workers[j]? = some w) (hfurther : GoesFurther w w') {other : PlanWorker}
    (hother : other ∈ workers) : ∃ other' ∈ workers.set j w', GoesFurther other other' := by
  obtain ⟨hlt, _⟩ := List.getElem?_eq_some_iff.mp hw
  obtain ⟨i, hi⟩ := List.mem_iff_getElem?.mp hother
  by_cases hij : j = i
  · subst hij
    rw [hw] at hi
    cases hi
    exact ⟨w', List.mem_of_getElem? (List.getElem?_set_self hlt), hfurther⟩
  · refine ⟨other, List.mem_of_getElem? (i := i) ?_, .refl other⟩
    rw [List.getElem?_set_ne hij]
    exact hi

/-- The key of the next step of a worker is new. -/
theorem CheckpointsStored.fresh {c : Crew} (h : CheckpointsStored c) {w : PlanWorker} (hw : w ∈ c.fleet.workers) :
    ∀ row ∈ c.fleet.sys.db.checkpoints, row.runId = w.runId →
      row.checkpointKey ≠ checkpointKey w.executionAttempt (w.state.completedSteps + 1) := by
  intro row hrow hid hkey
  obtain ⟨other, hother, hrun, k, hk, hkey'⟩ := h.keyed row hrow
  obtain ⟨hattempt, hsteps⟩ := checkpointKey_inj (hkey'.symm.trans hkey)
  have hsame := h.manned.unique hother hw (hrun.trans hid) hattempt
  subst hsame
  omega

/-- What is new in the checkpoints after a save. -/
theorem Saves.checkpointed {f f' : Fleet} {w w' : PlanWorker} {row : AgentCheckpoint}
    (h : Saves f f' w w' row) {g : Checkpointed}
    (hg : g ∈ checkpointedAfter f.sys.db f'.sys.db w.executionAttempt) :
    g.runId = w.runId ∧ g.executionAttempt = w.executionAttempt ∧
      g.nodeId ∈ w'.state.completedNodeIds := by
  obtain ⟨row', hrow', hg⟩ := List.mem_flatMap.mp hg
  obtain ⟨hmem, hnew⟩ := List.mem_filter.mp hrow'
  rw [h.checkpoints] at hmem
  rcases List.mem_append.mp hmem with hold | hmem
  · exact absurd hold (of_decide_eq_true hnew)
  · rw [List.mem_singleton.mp hmem] at hg
    obtain ⟨nodeId, hnode, rfl⟩ := List.mem_map.mp hg
    exact ⟨h.runId, rfl, h.ids ▸ hnode⟩

/-- A visit adds nothing to the checkpoints, or saves one at the newest attempt
of the run. -/
theorem CheckpointsStored.visits_cases {c c' : Crew} (h : CheckpointsStored c) {j : Nat} {w : PlanWorker} {run : AgentRun}
    {node : PlanNode} {rest : List PlanNode} {turn : NodeTurn} (hw : c.fleet.workers[j]? = some w)
    (hrun : c.fleet.sys.db.runs.find? w.runId = some run)
    (hfleet : c'.fleet = c.fleet.visits limits j w run node rest turn)
    (hcheckpointed : c'.checkpointed = c.checkpointed ++
      checkpointedAfter c.fleet.sys.db c'.fleet.sys.db w.executionAttempt) :
    (c'.fleet.sys.db.checkpoints = c.fleet.sys.db.checkpoints ∧
      c'.checkpointed = c.checkpointed) ∨
    ∃ row, Saves c.fleet c'.fleet w (w.visited run node rest turn) row ∧
      ∀ g ∈ c'.checkpointed, g ∈ c.checkpointed ∨ (g.runId = w.runId ∧
        g.executionAttempt = w.executionAttempt ∧
        g.nodeId ∈ (w.visited run node rest turn).state.completedNodeIds) := by
  rcases @Manned.visits_saves limits _ h.manned _ _ _ node rest turn hw hrun
    (h.fresh (List.mem_of_getElem? hw)) with hsame | ⟨row, hsaves⟩
  · rw [← hfleet] at hsame
    refine .inl ⟨hsame, ?_⟩
    rw [hcheckpointed]
    unfold checkpointedAfter
    rw [hsame, List.filter_eq_nil_iff.mpr fun row hrow => by simp [hrow]]
    exact List.append_nil _
  · rw [← hfleet] at hsaves
    refine .inr ⟨row, hsaves, fun g hg => ?_⟩
    rw [hcheckpointed] at hg
    rcases List.mem_append.mp hg with hold | hnew
    · exact .inl hold
    · exact .inr (hsaves.checkpointed hnew)

namespace CheckpointsStored

variable {c c' : Crew}

theorem quiet (h : CheckpointsStored c) (hmanned : Manned c'.fleet) (horderly : Orderly c'.fleet)
    (hworkers : ∀ w ∈ c.fleet.workers, w ∈ c'.fleet.workers)
    (hcheckpointed : c'.checkpointed = c.checkpointed)
    (hkept : SysKept c.fleet.sys c'.fleet.sys) : CheckpointsStored c' := by
  obtain ⟨keep, hkeep⟩ := hkept.checkpoints
  have hold : ∀ row ∈ c'.fleet.sys.db.checkpoints, row ∈ c.fleet.sys.db.checkpoints := by
    intro row hrow
    rw [hkeep] at hrow
    exact (List.mem_filter.mp hrow).1
  refine ⟨hmanned, horderly, fun g hg => ?_, fun row hrow => ?_, ?_, fun row hrow => ?_⟩
  · rw [hcheckpointed] at hg
    obtain ⟨w, hw, hknown⟩ := h.known g hg
    exact ⟨w, hworkers w hw, hknown⟩
  · obtain ⟨w, hw, hkey⟩ := h.keyed row (hold row hrow)
    exact ⟨w, hworkers w hw, hkey⟩
  · rw [hkeep]
    exact h.ordered.filter _
  · exact Nat.le_trans (h.past row (hold row hrow)) hkept.advances.clock

theorem visits (h : CheckpointsStored c) (hmanned : Manned c'.fleet) (horderly : Orderly c'.fleet)
    {j : Nat} {w : PlanWorker} {run : AgentRun} {node : PlanNode} {rest : List PlanNode}
    {turn : NodeTurn} (hw : c.fleet.workers[j]? = some w)
    (hrun : c.fleet.sys.db.runs.find? w.runId = some run)
    (hfleet : c'.fleet = c.fleet.visits limits j w run node rest turn)
    (hcheckpointed : c'.checkpointed = c.checkpointed ++
      checkpointedAfter c.fleet.sys.db c'.fleet.sys.db w.executionAttempt) :
    CheckpointsStored c' := by
  have hworkers : c'.fleet.workers = c.fleet.workers.set j (w.visited run node rest turn) := by
    rw [hfleet]
    rfl
  have hclock : c'.fleet.sys.clock = c.fleet.sys.clock := by
    rw [hfleet]
    exact Fleet.commitWrites_clock _ _ _
  have hfurther := visited_further w run node rest turn
  have hmoved : w.visited run node rest turn ∈ c'.fleet.workers := by
    obtain ⟨hlt, _⟩ := List.getElem?_eq_some_iff.mp hw
    rw [hworkers]
    exact List.mem_of_getElem? (List.getElem?_set_self hlt)
  -- what was known is known still, and keys of steps that were done are of such
  have hknown : ∀ g ∈ c.checkpointed, ∃ other ∈ c'.fleet.workers, other.runId = g.runId ∧
      other.executionAttempt = g.executionAttempt ∧ g.nodeId ∈ other.state.completedNodeIds := by
    intro g hg
    obtain ⟨other, hother, hid, hattempt, hnode⟩ := h.known g hg
    obtain ⟨other', hother', hgoes⟩ := visits_further hw hfurther hother
    rw [← hworkers] at hother'
    exact ⟨other', hother', hgoes.runId.trans hid, hgoes.executionAttempt.trans hattempt,
      hgoes.ids _ hnode⟩
  have hkeyed : ∀ row ∈ c.fleet.sys.db.checkpoints, ∃ other ∈ c'.fleet.workers,
      other.runId = row.runId ∧ ∃ k ≤ other.state.completedSteps,
        row.checkpointKey = checkpointKey other.executionAttempt k := by
    intro row hrow
    obtain ⟨other, hother, hid, k, hk, hkey⟩ := h.keyed row hrow
    obtain ⟨other', hother', hgoes⟩ := visits_further hw hfurther hother
    rw [← hworkers] at hother'
    exact ⟨other', hother', hgoes.runId.trans hid, k, Nat.le_trans hk hgoes.steps,
      hgoes.executionAttempt.symm ▸ hkey⟩
  rcases h.visits_cases hw hrun hfleet hcheckpointed with ⟨hsame, hghosts⟩ | ⟨row, hsaves, hghosts⟩
  · refine ⟨hmanned, horderly, ?_, ?_, ?_, ?_⟩
    · rw [hghosts]
      exact hknown
    · rw [hsame]
      exact hkeyed
    · rw [hsame]
      exact h.ordered
    · rw [hsame, hclock]
      exact h.past
  · refine ⟨hmanned, horderly, fun g hg => ?_, ?_, ?_, ?_⟩
    · rcases hghosts g hg with hold | ⟨hid, hattempt, hnode⟩
      · exact hknown g hold
      · exact ⟨_, hmoved, hid.symm, hattempt.symm, hnode⟩
    · rw [hsaves.checkpoints]
      intro row' hrow'
      rcases List.mem_append.mp hrow' with hold | hnew
      · exact hkeyed row' hold
      · rw [List.mem_singleton.mp hnew]
        exact ⟨_, hmoved, hsaves.runId.symm, _, Nat.le_refl _, hsaves.key⟩
    · rw [hsaves.checkpoints]
      refine List.pairwise_append.mpr ⟨h.ordered, List.pairwise_singleton _ _, ?_⟩
      intro old hold new hnew
      rw [List.mem_singleton.mp hnew, hsaves.createdAt]
      exact h.past old hold
    · rw [hsaves.checkpoints, hclock]
      intro row' hrow'
      rcases List.mem_append.mp hrow' with hold | hnew
      · exact h.past row' hold
      · rw [List.mem_singleton.mp hnew]
        exact hsaves.createdAt.le

theorem happens (h : CheckpointsStored c) (e : CrewEvent) :
    CheckpointsStored (c.happens limits e) := by
  have hstep := c.happens_step limits e
  have hmanned := Crew.manned_step h.manned hstep
  have horderly : Orderly (c.happens limits e).fleet := Crew.orderly_happens e h.orderly
  generalize c.happens limits e = c' at hstep hmanned horderly ⊢
  cases hstep with
  | quiet _ _ hworkers hcheckpointed hkept _ =>
    exact h.quiet hmanned horderly (fun w hw => hworkers ▸ hw) hcheckpointed hkept
  | begins place p _ w _ hworkers hcheckpointed hkept _ =>
    refine h.quiet hmanned horderly (fun w hw => ?_) hcheckpointed hkept
    rw [hworkers]
    exact List.mem_append_left _ hw
  | visits j turn _ w run node rest hw hrun _ hfleet hcheckpointed _ =>
    exact h.visits hmanned horderly hw hrun hfleet hcheckpointed

theorem init : CheckpointsStored {} where
  manned := ⟨⟨⟨List.Pairwise.nil, fun _ h => (nomatch h)⟩, fun _ _ h => (nomatch h),
    fun _ h => (nomatch h)⟩, fun _ h => (nomatch h), List.nodup_nil⟩
  orderly := ⟨fun _ h => (nomatch h), fun _ h => (nomatch h)⟩
  known := fun _ h => (nomatch h)
  keyed := fun _ h => (nomatch h)
  ordered := List.Pairwise.nil
  past := fun _ h => (nomatch h)

end CheckpointsStored

theorem stored_reach (limits : AdmissionLimits) (es : List CrewEvent) :
    CheckpointsStored (Crew.reach limits es) :=
  run_inv (I := CheckpointsStored) (fun _ e h => h.happens e) es {} .init

/-! ## The checkpoint that was saved last -/

/-- Where no checkpoint is older than one before it, the last one is loaded. -/
theorem foldl_laterCheckpoint (rows : List AgentCheckpoint)
    (hordered : rows.Pairwise fun a b => a.createdAt ≤ b.createdAt) :
    rows.foldl laterCheckpoint none = rows.getLast? := by
  induction rows using List.reverseRecOn with
  | nil => rfl
  | append_singleton rows row ih =>
    obtain ⟨hbefore, _, hlast⟩ := List.pairwise_append.mp hordered
    rw [List.foldl_append, ih hbefore, List.getLast?_concat]
    show laterCheckpoint rows.getLast? row = some row
    cases hfound : rows.getLast? with
    | none => rfl
    | some found =>
      have hle : found.createdAt ≤ row.createdAt :=
        hlast found (List.mem_of_getLast? hfound) row (List.mem_singleton.mpr rfl)
      exact if_neg (Nat.not_lt.mpr hle)

theorem CheckpointsStored.latest_eq {c : Crew} (h : CheckpointsStored c) (runId : String) :
    latestCheckpoint c.fleet.sys.db runId = (checkpointsOf c.fleet.sys.db runId).getLast? :=
  foldl_laterCheckpoint _ (h.ordered.filter _)

/-- Of a run all checkpoints are left, or none. -/
theorem checkpointsOf_filter {db db' : Db} {keep : String → Bool}
    (h : db'.checkpoints = db.checkpoints.filter fun c => keep c.runId) (runId : String) :
    checkpointsOf db' runId = checkpointsOf db runId ∨ checkpointsOf db' runId = [] := by
  unfold checkpointsOf
  rw [h, List.filter_filter]
  by_cases hkeep : keep runId = true
  · left
    refine List.filter_congr fun row _ => ?_
    by_cases hid : row.runId = runId
    · simp [hid, hkeep]
    · simp [hid]
  · right
    refine List.filter_eq_nil_iff.mpr fun row _ hrow => hkeep ?_
    obtain ⟨hid, hrow⟩ := Bool.and_eq_true_iff.mp hrow
    rw [← of_decide_eq_true hid]
    exact hrow

/-- What a save adds to the checkpoints of the runs. -/
theorem Saves.checkpointsOf {f f' : Fleet} {w w' : PlanWorker} {row : AgentCheckpoint}
    (h : Saves f f' w w' row) (runId : String) :
    AgentRuntime.checkpointsOf f'.sys.db runId
      = if runId = w.runId then AgentRuntime.checkpointsOf f.sys.db runId ++ [row]
        else AgentRuntime.checkpointsOf f.sys.db runId := by
  unfold AgentRuntime.checkpointsOf
  rw [h.checkpoints, List.filter_append]
  by_cases hid : runId = w.runId
  · rw [if_pos hid]
    simp [h.runId, hid]
  · rw [if_neg hid]
    simp [h.runId, Ne.symm hid]

/-- **The checkpoint to resume from is the one saved last.** Whatever happens,
the checkpoints of a run stay as they are or are all gone, or one is added that
no earlier one has the key of, and that is the one a resumed attempt loads. -/
theorem saves_append (limits : AdmissionLimits) (es : List CrewEvent) (e : CrewEvent)
    (runId : String) :
    checkpointsOf (Crew.reach limits (es ++ [e])).fleet.sys.db runId
        = checkpointsOf (Crew.reach limits es).fleet.sys.db runId ∨
      checkpointsOf (Crew.reach limits (es ++ [e])).fleet.sys.db runId = [] ∨
      ∃ row, checkpointsOf (Crew.reach limits (es ++ [e])).fleet.sys.db runId
          = checkpointsOf (Crew.reach limits es).fleet.sys.db runId ++ [row] ∧
        (∀ old ∈ checkpointsOf (Crew.reach limits es).fleet.sys.db runId,
          old.checkpointKey ≠ row.checkpointKey) ∧
        latestCheckpoint (Crew.reach limits (es ++ [e])).fleet.sys.db runId = some row := by
  have h := stored_reach limits es
  have h' := stored_reach limits (es ++ [e])
  have hreach : Crew.reach limits (es ++ [e]) = (Crew.reach limits es).happens limits e := by
    unfold Crew.reach
    rw [run_append]
    rfl
  have hstep := (Crew.reach limits es).happens_step limits e
  rw [← hreach] at hstep
  generalize Crew.reach limits (es ++ [e]) = c' at h' hstep ⊢
  generalize Crew.reach limits es = c at h hstep ⊢
  have hkept : SysKept c.fleet.sys c'.fleet.sys →
      checkpointsOf c'.fleet.sys.db runId = checkpointsOf c.fleet.sys.db runId ∨
        checkpointsOf c'.fleet.sys.db runId = [] := fun hkept => by
    obtain ⟨keep, hkeep⟩ := hkept.checkpoints
    exact checkpointsOf_filter hkeep runId
  cases hstep with
  | quiet _ _ _ _ hsys _ => exact (hkept hsys).imp_right .inl
  | begins _ _ _ _ _ _ _ hsys _ => exact (hkept hsys).imp_right .inl
  | visits j turn _ w run node rest hw hrun _ hfleet hcheckpointed _ =>
    rcases h.visits_cases hw hrun hfleet hcheckpointed with ⟨hsame, _⟩ | ⟨row, hsaves, _⟩
    · left
      unfold checkpointsOf
      rw [hsame]
    · have hof := hsaves.checkpointsOf runId
      by_cases hid : runId = w.runId
      · rw [if_pos hid] at hof
        refine .inr (.inr ⟨row, hof, fun old hold hkey => ?_, ?_⟩)
        · -- the key is of a step that the worker has not done before
          obtain ⟨hmem, hrunId⟩ := List.mem_filter.mp hold
          obtain ⟨other, hother, hrun', k, hk, hkey'⟩ := h.keyed old hmem
          rw [hkey, hsaves.key] at hkey'
          obtain ⟨hattempt, hsteps⟩ := checkpointKey_inj hkey'
          have hsame := h.manned.unique hother (List.mem_of_getElem? hw)
            (hrun'.trans ((of_decide_eq_true hrunId).trans hid)) hattempt.symm
          subst hsame
          exact absurd hsteps (Nat.ne_of_gt (Nat.lt_of_le_of_lt hk hsaves.steps))
        · rw [h'.latest_eq, hof, List.getLast?_concat]
      · rw [if_neg hid] at hof
        exact .inl hof

/-! ## Nodes that must not be repeated -/

/-- The plan has the node, and says that it must not be repeated. -/
def RunsOnce (plan : AgentPlan) (nodeId : String) : Prop :=
  ∃ node ∈ plan.steps, node.nodeId = nodeId ∧ node.safeToRerun = some false

instance (plan : AgentPlan) (nodeId : String) : Decidable (RunsOnce plan nodeId) := by
  unfold RunsOnce; infer_instance

namespace Crew

/-- No attempt has given a node to its runner that must not be repeated, and that
an earlier attempt had checkpointed. -/
def DoneOnce (c : Crew) : Prop :=
  ∀ w ∈ c.fleet.workers, ∀ g ∈ c.checkpointed, g.runId = w.runId →
    g.executionAttempt < w.executionAttempt → RunsOnce w.plan g.nodeId →
      g.nodeId ∉ w.state.invoked

/-- An attempt that follows such a checkpoint is a resumed one. -/
def TakesUp (c : Crew) : CrewEvent → Prop
  | .begins i _ =>
    ∀ held ∈ c.fleet.sys.issued[i]?, ∀ status ∈ c.seen[i]?,
      ∀ plan ∈ c.fleet.sys.db.plan? held.runId,
        (∃ g ∈ c.checkpointed, g.runId = held.runId ∧
          g.executionAttempt < held.ctx.executionAttempt ∧ RunsOnce plan g.nodeId) → Resumes status
  | _ => True

instance (c : Crew) (e : CrewEvent) : Decidable (c.TakesUp e) := by
  cases e <;> unfold TakesUp <;> infer_instance

end Crew

/-- What the checkpoints and the workers know of nodes that must not be
repeated: the latest checkpoint of a run knows them all, and so does a worker
those that were checkpointed before its attempt, and it has not run them. -/
structure Remembered (c : Crew) : Prop where
  latest : ∀ g ∈ c.checkpointed, ∀ plan, c.fleet.sys.db.plan? g.runId = some plan →
    RunsOnce plan g.nodeId → ∀ row, latestCheckpoint c.fleet.sys.db g.runId = some row →
      g.nodeId ∈ row.state.completedNodeIds
  workers : ∀ w ∈ c.fleet.workers, ∀ g ∈ c.checkpointed, g.runId = w.runId →
    g.executionAttempt < w.executionAttempt → RunsOnce w.plan g.nodeId →
      g.nodeId ∈ w.state.completedNodeIds ∧ g.nodeId ∉ w.state.invoked

/-- What is checkpointed was so under the plan its run has. -/
theorem CheckpointsStored.plan_before {c c' : Crew} (h : CheckpointsStored c)
    (hplans : ∀ q plan, c.fleet.sys.db.plan? q = some plan → c'.fleet.sys.db.plan? q = some plan)
    {g : Checkpointed} (hg : g ∈ c.checkpointed) {plan : AgentPlan}
    (hplan : c'.fleet.sys.db.plan? g.runId = some plan) :
    c.fleet.sys.db.plan? g.runId = some plan := by
  obtain ⟨w, hw, hid, _⟩ := h.known g hg
  have hbefore := (h.orderly.workers w hw).1
  rw [hid] at hbefore
  rw [hplans _ _ hbefore] at hplan
  rw [hbefore, hplan]

namespace Remembered

variable {c c' : Crew}

/-- The checkpoints of some runs may go. -/
theorem latest_kept (h : Remembered c) (hstored : CheckpointsStored c)
    (hcheckpointed : c'.checkpointed = c.checkpointed) (hkept : SysKept c.fleet.sys c'.fleet.sys) :
    ∀ g ∈ c'.checkpointed, ∀ plan, c'.fleet.sys.db.plan? g.runId = some plan →
      RunsOnce plan g.nodeId → ∀ row, latestCheckpoint c'.fleet.sys.db g.runId = some row →
        g.nodeId ∈ row.state.completedNodeIds := by
  intro g hg plan hplan honce row hrow
  rw [hcheckpointed] at hg
  obtain ⟨keep, hkeep⟩ := hkept.checkpoints
  unfold latestCheckpoint at hrow
  rcases checkpointsOf_filter hkeep g.runId with hsame | hgone
  · rw [hsame] at hrow
    exact h.latest g hg plan (hstored.plan_before hkept.plans hg hplan) honce row hrow
  · rw [hgone] at hrow
    cases hrow

/-- What a resumed attempt has completed before its first node. -/
theorem opening_ids (a : AttemptContext) {p : Prologue} {run : AgentRun}
    {resumed : Option (Option CheckpointState)} {s : Executing}
    (h : a.opening p run resumed = some s) :
    s.invoked = [] ∧ ∀ loaded, resumed = some loaded → ∃ state, loaded = some state ∧
      ∀ x ∈ state.completedNodeIds, x ∈ s.completedNodeIds := by
  have hfirst : ∀ {ids : List String} {target : Option String},
      a.atFirstNode p run ids target = some s →
        s.invoked = [] ∧ s.completedNodeIds = ids.dedup := by
    intro ids target hs
    unfold AttemptContext.atFirstNode at hs
    split at hs
    · cases hs
      exact ⟨rfl, rfl⟩
    · cases hs
  cases resumed with
  | none =>
    refine ⟨(hfirst h).1, fun loaded heq => ?_⟩
    cases heq
  | some loaded =>
    cases loaded with
    | none => cases h
    | some state =>
      unfold AttemptContext.opening at h
      dsimp only at h
      split at h
      · obtain ⟨hinvoked, hids⟩ := hfirst h
        refine ⟨hinvoked, fun loaded heq => ?_⟩
        cases heq
        exact ⟨state, rfl, fun x hx => hids ▸ List.mem_dedup.mpr hx⟩
      · cases h

/-- What `load_latest` gives is in the latest checkpoint. -/
theorem loadLatest_eq_some {db : Db} {now : Time} {runId : String} {ctx : LeaseContext}
    {state : CheckpointState} (h : loadLatest db now runId ctx = some state) :
    ∃ row, latestCheckpoint db runId = some row ∧ row.state = state := by
  unfold loadLatest at h
  split at h
  · cases h
  · split at h
    · cases h
    next row hrow =>
      split at h
      · cases h
      · split at h
        · cases h
        · cases h
          exact ⟨row, hrow, rfl⟩

/-- A worker that resumes knows what was checkpointed before. -/
theorem begun (h : Remembered c) {i : Nat} {p : Prologue} {w : PlanWorker}
    (hbegun : Begun c i p w) (htakes : c.TakesUp (.begins i p)) :
    ∀ g ∈ c.checkpointed, g.runId = w.runId → g.executionAttempt < w.executionAttempt →
      RunsOnce w.plan g.nodeId → g.nodeId ∈ w.state.completedNodeIds ∧
        g.nodeId ∉ w.state.invoked := by
  intro g hg hid hlt honce
  obtain ⟨held, status, run, hheld, hseen, _, hplan, hrunId, hattempt, _, hopening⟩ :=
    hbegun.started
  obtain ⟨hinvoked, hloaded⟩ := opening_ids _ hopening
  have hresumes : Resumes status := by
    refine htakes held hheld status hseen w.plan hplan ⟨g, hg, hid.trans hrunId, ?_, honce⟩
    rw [← hattempt]
    exact hlt
  have hstarts : c.startsFrom status held = some
      (loadLatest c.fleet.sys.db c.fleet.sys.clock held.runId held.ctx) := if_pos hresumes
  obtain ⟨state, hstate, hids⟩ := hloaded _ hstarts
  obtain ⟨row, hrow, rfl⟩ := loadLatest_eq_some hstate
  have hrunId' : g.runId = held.runId := hid.trans hrunId
  refine ⟨hids _ (h.latest g hg w.plan (hrunId' ▸ hplan) honce row (hrunId' ▸ hrow)), ?_⟩
  rw [hinvoked]
  exact List.not_mem_nil

/-- A visit does not give a node to its runner that the worker knows is done. -/
theorem visited {w : PlanWorker} {run : AgentRun} {node : PlanNode} {rest : List PlanNode}
    {turn : NodeTurn} {nodeId : String} (hnodup : (w.plan.steps.map (·.nodeId)).Nodup)
    (hnode : node ∈ w.plan.steps) (honce : RunsOnce w.plan nodeId)
    (hknown : nodeId ∈ w.state.completedNodeIds) (hnot : nodeId ∉ w.state.invoked) :
    nodeId ∉ (w.visited run node rest turn).state.invoked := by
  have hinvokes := (w.meets turn).visit_invokes { w.state with run := run } node
  change _ = _ ∧ _ ∨ _ at hinvokes
  rcases hinvokes with ⟨hsame, _⟩ | ⟨_, _, henters⟩
  · rw [show (w.visited run node rest turn).state = _ from hsame]
    exact hnot
  rcases henters.invoked with hsame | ⟨hdone, hmore⟩
  · rw [show (w.visited run node rest turn).state.invoked = _ from hsame]
    exact hnot
  · rw [show (w.visited run node rest turn).state.invoked = _ from hmore]
    intro hmem
    rcases List.mem_append.mp hmem with hold | hnew
    · exact hnot hold
    · -- the node itself says that it must not be repeated
      obtain ⟨node', hnode', hid, hsafe⟩ := honce
      have hid' : node'.nodeId = node.nodeId := hid.trans (List.mem_singleton.mp hnew)
      have hsame : node' = node := List.inj_on_of_nodup_map hnodup hnode' hnode hid'
      subst hsame
      exact hdone ⟨hid ▸ hknown, hsafe⟩

/-- After a visit a worker is one of those before it, or the one that has moved. -/
theorem worker_cases {workers : List PlanWorker} {j : Nat} {w w' other : PlanWorker}
    (hw : workers[j]? = some w) (hfurther : GoesFurther w w') (hother : other ∈ workers.set j w') :
    other ∈ workers ∨ (other = w' ∧ w ∈ workers ∧ GoesFurther w other) := by
  rcases List.mem_or_eq_of_mem_set hother with hold | rfl
  · exact .inl hold
  · exact .inr ⟨rfl, List.mem_of_getElem? hw, hfurther⟩

theorem visits (h : Remembered c) (hstored : CheckpointsStored c)
    (hstored' : CheckpointsStored c') {j : Nat} {w : PlanWorker} {run : AgentRun} {node : PlanNode}
    {rest : List PlanNode} {turn : NodeTurn} (hw : c.fleet.workers[j]? = some w)
    (hrun : c.fleet.sys.db.runs.find? w.runId = some run) (hleft : w.left = node :: rest)
    (hfleet : c'.fleet = c.fleet.visits limits j w run node rest turn)
    (hcheckpointed : c'.checkpointed = c.checkpointed ++
      checkpointedAfter c.fleet.sys.db c'.fleet.sys.db w.executionAttempt) : Remembered c' := by
  have hmem : w ∈ c.fleet.workers := List.mem_of_getElem? hw
  obtain ⟨hplanOf, hnodup, hin⟩ := hstored.orderly.workers w hmem
  have hnode : node ∈ w.plan.steps := hin node (hleft ▸ List.mem_cons_self)
  have hfurther := visited_further w run node rest turn
  have hworkers : c'.fleet.workers = c.fleet.workers.set j (w.visited run node rest turn) := by
    rw [hfleet]
    rfl
  have hplans : ∀ q, c'.fleet.sys.db.plan? q = c.fleet.sys.db.plan? q := by
    rw [hfleet]
    exact Fleet.plan?_of_plans (Fleet.commitWrites_plans _ _ _)
  -- what the workers knew, they know after the visit
  have hold : ∀ other ∈ c'.fleet.workers, ∀ g ∈ c.checkpointed, g.runId = other.runId →
      g.executionAttempt < other.executionAttempt → RunsOnce other.plan g.nodeId →
        g.nodeId ∈ other.state.completedNodeIds ∧ g.nodeId ∉ other.state.invoked := by
    intro other hother g hg hid hlt honce
    rw [hworkers] at hother
    rcases worker_cases hw hfurther hother with hbefore | ⟨rfl, _, _⟩
    · exact h.workers other hbefore g hg hid hlt honce
    · obtain ⟨hknown, hnot⟩ := h.workers w hmem g hg hid hlt honce
      exact ⟨hfurther.ids _ hknown, visited hnodup hnode honce hknown hnot⟩
  rcases hstored.visits_cases hw hrun hfleet hcheckpointed with
    ⟨hsame, hghosts⟩ | ⟨row, hsaves, hghosts⟩
  · refine ⟨fun g hg plan hplan honce row hrow => ?_, fun other hother g hg => ?_⟩
    · rw [hghosts] at hg
      rw [hplans] at hplan
      unfold latestCheckpoint checkpointsOf at hrow
      rw [hsame] at hrow
      exact h.latest g hg plan hplan honce row hrow
    · rw [hghosts] at hg
      exact hold other hother g hg
  -- nobody is at a later attempt than the one that has saved
  have hnewest : ∀ other ∈ c'.fleet.workers, other.runId = w.runId →
      other.executionAttempt ≤ w.executionAttempt := by
    intro other hother hid
    rw [hworkers] at hother
    rcases worker_cases hw hfurther hother with hbefore | ⟨rfl, _, _⟩
    · exact hsaves.newest other hbefore hid
    · exact Nat.le_refl _
  refine ⟨fun g hg plan hplan honce found hfound => ?_, fun other hother g hg hid hlt honce => ?_⟩
  · rw [hplans] at hplan
    rw [hstored'.latest_eq, hsaves.checkpointsOf] at hfound
    by_cases hid : g.runId = w.runId
    · rw [if_pos hid, List.getLast?_concat] at hfound
      cases hfound
      rw [hsaves.ids]
      rcases hghosts g hg with hbefore | ⟨_, _, hnode'⟩
      · obtain ⟨other, hother, hrun', hattempt, hnode'⟩ := hstored.known g hbefore
        have hle := hsaves.newest other hother (hrun'.trans hid)
        rcases Nat.lt_or_eq_of_le hle with hlt | heq
        · have hplan' : w.plan = plan := by
            rw [hid, hplanOf] at hplan
            exact Option.some.inj hplan
          exact hfurther.ids _ (h.workers w hmem g hbefore hid (hattempt ▸ hlt)
            (hplan' ▸ honce)).1
        · have hsame := hstored.manned.unique hother hmem (hrun'.trans hid) heq
          subst hsame
          exact hfurther.ids _ hnode'
      · exact hnode'
    · rw [if_neg hid, ← hstored.latest_eq] at hfound
      rcases hghosts g hg with hbefore | ⟨hid', _⟩
      · exact h.latest g hbefore plan hplan honce found hfound
      · exact absurd hid' hid
  · rcases hghosts g hg with hbefore | ⟨hid', hattempt, _⟩
    · exact hold other hother g hbefore hid hlt honce
    · have hle := hnewest other hother (hid.symm.trans hid')
      omega

theorem happens (h : Remembered c) (hstored : CheckpointsStored c) {e : CrewEvent}
    (htakes : c.TakesUp e) : Remembered (c.happens limits e) := by
  have hstored' : CheckpointsStored (c.happens limits e) := hstored.happens e
  have hstep := c.happens_step limits e
  generalize c.happens limits e = c' at hstep hstored' ⊢
  cases hstep with
  | quiet _ _ hworkers hcheckpointed hkept _ =>
    refine ⟨h.latest_kept hstored hcheckpointed hkept, ?_⟩
    rw [hworkers, hcheckpointed]
    exact h.workers
  | begins i p _ w hbegun hworkers hcheckpointed hkept _ =>
    refine ⟨h.latest_kept hstored hcheckpointed hkept, fun other hother => ?_⟩
    rw [hcheckpointed]
    rw [hworkers] at hother
    rcases List.mem_append.mp hother with hbefore | hnew
    · exact h.workers other hbefore
    · rw [List.mem_singleton.mp hnew]
      exact h.begun hbegun htakes
  | visits j turn _ w run node rest hw hrun hleft hfleet hcheckpointed _ =>
    exact h.visits hstored hstored' hw hrun hleft hfleet hcheckpointed

end Remembered

/-- **Done is done.** If in a run every attempt that follows the checkpoint of a
node that must not be repeated is a resumed one, no later attempt gives the node
to its runner: not after a crash, when the lease runs out, the run is claimed
again and the first worker goes on, and not after a retry or a decision. -/
theorem done_once (limits : AdmissionLimits) (es : List CrewEvent)
    (h : Along (Crew.happens limits) Crew.TakesUp {} es) : (Crew.reach limits es).DoneOnce := by
  have hinit : CheckpointsStored {} ∧ Remembered {} :=
    ⟨.init, fun _ hg => (nomatch hg), fun _ hw => (nomatch hw)⟩
  have hinv : CheckpointsStored (Crew.reach limits es) ∧ Remembered (Crew.reach limits es) :=
    along_inv (I := fun c => CheckpointsStored c ∧ Remembered c)
      (fun c e hI htakes => ⟨hI.1.happens e, hI.2.happens hI.1 htakes⟩) es {} hinit h
  exact fun w hw g hg hid hlt honce => (hinv.2.workers w hw g hg hid hlt honce).2

/-- A worker claims the run and completes the first node. -/
def firstAttempt (turn : NodeTurn) : List CrewEvent :=
  [.op (after 0 (.register [samplePackage])),
   .op (after 0 (.create "run-1" (sampleCommand .auto) "caller" "tenant" 1)),
   .reads "run-1", .claims 0 "worker-1" 0 90, .begins 0 {}, .visits 0 turn]

/-- Another one takes the run up. -/
def secondAttempt : List CrewEvent :=
  [.reads "run-1", .claims 1 "worker-2" 0 90, .begins 1 {}, .visits 1 { stepId := "step-2" },
   .visits 1 { stepId := "step-3" }]

/-- The first worker waits for a human, who approves. -/
def approvedAttempts : List CrewEvent :=
  firstAttempt { stepId := "step-1", outcome := .completed false true false } ++
  [.op (after 1 (.pauseForHuman 0 3600)),
   .op (after 1 (.approve "run-1" "caller" "approve" 3))] ++ secondAttempt

/-- The draft is not written again. -/
theorem approved_done_once :
    (Crew.reach {} approvedAttempts).fleet.workers.map (fun w => w.state.invoked)
        = [["draft"], ["publish"]] ∧
      (Crew.reach {} approvedAttempts).DoneOnce :=
  ⟨by decide +kernel, done_once {} approvedAttempts (by decide +kernel)⟩

-- the first worker dies instead: the reaper leaves the run pending, and it starts afresh
example : (Crew.reach {} (firstAttempt { stepId := "step-1" } ++
    [.op (after 91 .reapExpired)] ++ secondAttempt)).fleet.workers.map (fun w => w.state.invoked)
      = [["draft"], ["draft", "publish"]] := by
  decide +kernel

end AgentRuntime
