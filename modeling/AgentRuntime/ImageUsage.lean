import AgentRuntime.UsageSessions
import AgentRuntime.LoopContract

/-!
# Images in the ledger of model calls

The media service writes a row of `agent_model_usages` for each image it
tries, and the two readers of the budget sum the rows of a run without
looking at what they are. A row of an image has no tokens and no cost, so
the sums are right; but it is a row, and the limit on model calls counts
rows. `ImagesApart` says which rows are images: those that no committed
reservation has drawn.
-/

namespace AgentRuntime

open Keyed Runs Interleave

/-- A row nobody but the media service writes. -/
structure AgentModelUsage.IsImage (usage : AgentModelUsage) : Prop where
  status : usage.status = .succeeded ∨ usage.status = .failed
  inputTokens : usage.inputTokens = none
  outputTokens : usage.outputTokens = none
  reservedTokens : usage.reservedTokens = none
  estimatedCost : usage.estimatedCost = some 0

theorem AgentModelUsage.IsImage.usageTokens {usage : AgentModelUsage} (h : usage.IsImage) :
    PolicyEngine.usageTokens usage = 0 := by
  have hnot : usage.status ≠ .abortedBeforeSend := by
    rcases h.status with hs | hs <;> rw [hs] <;> simp
  unfold PolicyEngine.usageTokens
  rw [if_neg hnot, h.inputTokens, h.outputTokens, h.reservedTokens]
  rfl

theorem AgentModelUsage.IsImage.usageCost {usage : AgentModelUsage} (h : usage.IsImage) :
    PolicyEngine.usageCost usage = 0 := by
  unfold PolicyEngine.usageCost
  rw [h.estimatedCost]
  rfl

namespace Sessions

/-- The row of a reservation that `reserve` has committed. -/
def IsReserved (s : Sessions) (usage : AgentModelUsage) : Prop :=
  ∃ r ∈ s.reservations, r.usageId = usage.usageId

instance (s : Sessions) (usage : AgentModelUsage) : Decidable (s.IsReserved usage) := by
  unfold IsReserved; infer_instance

/-- The ledger without the rows of the media service. -/
def modelUsages (s : Sessions) : UsageTable :=
  s.usages.filter (fun u => decide (s.IsReserved u))

/-- The model calls a run has in the ledger. -/
def modelCalls (s : Sessions) (q : String) : List AgentModelUsage :=
  PolicyEngine.rowsOf s.modelUsages q

/-- The images a run has in the ledger. -/
def imageRows (s : Sessions) (q : String) : List AgentModelUsage :=
  (PolicyEngine.rowsOf s.usages q).filter (fun u => decide (¬ s.IsReserved u))

/-- Every row that no reservation has drawn is that of an image. -/
structure ImagesApart (s : Sessions) : Prop where
  rows : ∀ u ∈ s.usages.rows, u.usageId < s.drawn
  drawn : ∀ r ∈ s.reservations, r.usageId < s.drawn
  image : ∀ u ∈ s.usages.rows, ¬ s.IsReserved u → u.IsImage

/-! ## Every statement keeps the images apart -/

theorem mem_updateWhere {t : UsageTable} {k : Nat} {p : AgentModelUsage → Prop} [DecidablePred p]
    {f : AgentModelUsage → AgentModelUsage} {b : AgentModelUsage}
    (h : b ∈ (t.updateWhere k p f).1.rows) : b ∈ t.rows ∨ ∃ r ∈ t.rows, p r ∧ b = f r := by
  rcases t.updateWhere_cases k p f with ⟨r, hfind, hp, heq⟩ | ⟨_, heq⟩
  · rw [heq] at h
    rcases Table.mem_put.mp h with ⟨rfl, _⟩ | ⟨hold, _⟩
    · exact Or.inr ⟨r, Table.mem_of_find? hfind, hp, rfl⟩
    · exact Or.inl hold
  · rw [heq] at h
    exact Or.inl h

/-- An update that matches no finished row touches no image. -/
theorem ImagesApart.update {s : Sessions} (h : ImagesApart s) {s' : Sessions} {k : Nat}
    {p : AgentModelUsage → Prop} [DecidablePred p] {f : AgentModelUsage → AgentModelUsage}
    (hid : ∀ r, (f r).usageId = r.usageId)
    (hp : ∀ r, p r → r.status ≠ .succeeded ∧ r.status ≠ .failed)
    (husages : s'.usages = (s.usages.updateWhere k p f).1) (hdrawn : s'.drawn = s.drawn)
    (hres : s'.reservations = s.reservations) : ImagesApart s' := by
  have hsame : ∀ u, s'.IsReserved u ↔ s.IsReserved u := fun u => by
    unfold IsReserved
    rw [hres]
  refine ⟨fun u hu => ?_, fun r hr => ?_, fun u hu hnot => ?_⟩
  · rw [hdrawn]
    rw [husages] at hu
    rcases mem_updateWhere hu with hold | ⟨r, hr, _, rfl⟩
    · exact h.rows u hold
    · rw [hid]
      exact h.rows r hr
  · rw [hdrawn]
    exact h.drawn r (hres ▸ hr)
  · rw [husages] at hu
    rw [hsame] at hnot
    rcases mem_updateWhere hu with hold | ⟨r, hr, hmatch, rfl⟩
    · exact h.image u hold hnot
    · have himage := h.image r hr fun ⟨res, hmem, heq⟩ => hnot ⟨res, hmem, heq.trans (hid r).symm⟩
      rcases himage.status with hs | hs
      · exact absurd hs (hp r hmatch).1
      · exact absurd hs (hp r hmatch).2

theorem ImagesApart.delete {s : Sessions} (h : ImagesApart s) {s' : Sessions} {k : Nat}
    {p : AgentModelUsage → Prop} [DecidablePred p]
    (husages : s'.usages = (s.usages.deleteWhere k p).1) (hdrawn : s'.drawn = s.drawn)
    (hres : s'.reservations = s.reservations) : ImagesApart s' := by
  have hsub : ∀ u ∈ s'.usages.rows, u ∈ s.usages.rows := by
    intro u hu
    rw [husages] at hu
    rcases s.usages.deleteWhere_cases k p with ⟨_, _, _, heq⟩ | ⟨_, heq⟩
    · rw [heq] at hu
      exact (List.mem_filter.mp hu).1
    · rwa [heq] at hu
  refine ⟨fun u hu => hdrawn ▸ h.rows u (hsub u hu), fun r hr => hdrawn ▸ h.drawn r (hres ▸ hr),
    fun u hu hnot => h.image u (hsub u hu) fun hr => hnot ?_⟩
  unfold IsReserved at hr ⊢
  rwa [hres]

theorem ImagesApart.expire {s : Sessions} (h : ImagesApart s) {s' : Sessions} {current : Time}
    (husages : s'.usages = ModelUsageService.markExpiredRunningUnknown s.usages current)
    (hdrawn : s'.drawn = s.drawn) (hres : s'.reservations = s.reservations) : ImagesApart s' := by
  have hrow : ∀ u ∈ s'.usages.rows, ∃ r ∈ s.usages.rows, r.expire current = u := by
    intro u hu
    rw [husages] at hu
    exact List.mem_map.mp hu
  refine ⟨fun u hu => ?_, fun r hr => hdrawn ▸ h.drawn r (hres ▸ hr), fun u hu hnot => ?_⟩
  · obtain ⟨r, hr, rfl⟩ := hrow u hu
    rw [r.usageId_expire, hdrawn]
    exact h.rows r hr
  · obtain ⟨r, hr, rfl⟩ := hrow u hu
    have himage := h.image r hr fun ⟨res, hmem, heq⟩ =>
      hnot ⟨res, hres ▸ hmem, heq.trans (r.usageId_expire current).symm⟩
    have hquiet : ¬ r.Expired current := fun hexp => by
      have hflight := hexp.1
      rcases himage.status with hs | hs <;> rw [hs] at hflight <;> cases hflight
    have hkept : r.expire current = r := if_neg hquiet
    rw [hkept]
    exact himage

theorem ImagesApart.reserve {s : Sessions} (h : ImagesApart s) {s' : Sessions}
    {u : AgentModelUsage} (hu : u.usageId = s.drawn) (hins : s.usages.insert? u = some s'.usages)
    (hdrawn : s'.drawn = s.drawn + 1) (res : Reservation) (hid : res.usageId = s.drawn)
    (hres : s'.reservations = s.reservations ++ [res]) : ImagesApart s' := by
  have hrows := (Table.insert?_eq_some.mp hins).2
  refine ⟨fun v hv => ?_, fun r hr => ?_, fun v hv hnot => ?_⟩
  · rw [hdrawn]
    rw [hrows] at hv
    rcases List.mem_append.mp hv with hold | hnew
    · exact Nat.lt_succ_of_lt (h.rows v hold)
    · rw [List.mem_singleton.mp hnew, hu]
      exact Nat.lt_succ_self _
  · rw [hdrawn]
    rw [hres] at hr
    rcases List.mem_append.mp hr with hold | hnew
    · exact Nat.lt_succ_of_lt (h.drawn r hold)
    · rw [List.mem_singleton.mp hnew, hid]
      exact Nat.lt_succ_self _
  · rw [hrows] at hv
    rcases List.mem_append.mp hv with hold | hnew
    · exact h.image v hold fun ⟨r, hr, heq⟩ =>
        hnot ⟨r, by rw [hres]; exact List.mem_append_left _ hr, heq⟩
    · refine absurd ⟨res, by rw [hres]; exact List.mem_append_right _ List.mem_cons_self, ?_⟩ hnot
      rw [List.mem_singleton.mp hnew, hid, hu]

theorem ImagesApart.recordImage {s : Sessions} (h : ImagesApart s) {s' : Sessions}
    {u : AgentModelUsage} (hu : u.usageId = s.drawn) (himage : u.IsImage)
    (hins : s.usages.insert? u = some s'.usages) (hdrawn : s'.drawn = s.drawn + 1)
    (hres : s'.reservations = s.reservations) : ImagesApart s' := by
  have hrows := (Table.insert?_eq_some.mp hins).2
  refine ⟨fun v hv => ?_, fun r hr => ?_, fun v hv hnot => ?_⟩
  · rw [hdrawn]
    rw [hrows] at hv
    rcases List.mem_append.mp hv with hold | hnew
    · exact Nat.lt_succ_of_lt (h.rows v hold)
    · rw [List.mem_singleton.mp hnew, hu]
      exact Nat.lt_succ_self _
  · rw [hdrawn]
    exact Nat.lt_succ_of_lt (h.drawn r (hres ▸ hr))
  · rw [hrows] at hv
    rcases List.mem_append.mp hv with hold | hnew
    · exact h.image v hold fun ⟨r, hr, heq⟩ => hnot ⟨r, hres ▸ hr, heq⟩
    · rw [List.mem_singleton.mp hnew]
      exact himage

theorem ImagesApart.of_same {s s' : Sessions} (h : ImagesApart s) (husages : s'.usages = s.usages)
    (hdrawn : s'.drawn = s.drawn) (hres : s'.reservations = s.reservations) : ImagesApart s' := by
  refine ⟨fun u hu => hdrawn ▸ h.rows u (husages ▸ hu), fun r hr => hdrawn ▸ h.drawn r (hres ▸ hr),
    fun u hu hnot => h.image u (husages ▸ hu) fun hr => hnot ?_⟩
  unfold IsReserved at hr ⊢
  rwa [hres]

theorem isImage_imageUsage (usageId : Nat) (runId : String) (executionAttempt : Nat)
    (succeeded : Bool) (now : Time) :
    (imageUsage usageId runId executionAttempt succeeded now).IsImage :=
  ⟨by cases succeeded <;> simp [imageUsage], rfl, rfl, rfl, rfl⟩

theorem imagesApart_once (limits : AdmissionLimits) {s : Sessions} (h : ImagesApart s)
    (op : UsageOp) : ImagesApart (s.once limits op) := by
  cases op with
  | reserve => exact h
  | settle => exact h
  | activateReservation usageId permitId =>
    exact h.update (p := fun r => r.status = .reserved) (f := fun r => r.activate permitId)
      (fun _ => rfl) (fun r hs => by simp [hs]) rfl rfl rfl
  | markStarted usageId =>
    exact h.update (p := fun r => r.status = .running) (f := AgentModelUsage.start)
      (fun _ => rfl) (fun r hs => by simp [hs]) rfl rfl rfl
  | cancelReservation usageId => exact h.delete rfl rfl rfl
  | markExpired current => exact h.expire rfl rfl rfl
  | recordImage runId executionAttempt succeeded =>
    unfold once
    dsimp only
    split
    · exact h
    next usages hins => exact h.recordImage rfl (isImage_imageUsage ..) hins rfl rfl
  | lifecycle op => exact h.of_same rfl rfl rfl

/-- A settlement matches no finished row. -/
theorem not_finished_of_matches {p : ModelUsageService.PendingSettle} {r : AgentModelUsage}
    (h : ModelUsageService.Matches p r) : r.status ≠ .succeeded ∧ r.status ≠ .failed := by
  have hs := h.1
  unfold ModelUsageService.allowedStatuses at hs
  split at hs <;> constructor <;> intro heq <;> rw [heq] at hs <;> simp at hs

theorem imagesApart_exec (limits : AdmissionLimits) {s : Sessions} (h : ImagesApart s)
    (c : Statement) : ImagesApart (exec limits s c).1 := by
  cases c with
  | reserveRead ctx route tries =>
    unfold exec
    dsimp only
    split <;> exact h
  | reserveWrite ctx route tries version after =>
    show ImagesApart (s.reserveWrite ctx route tries version after).1
    unfold reserveWrite
    split
    · exact h
    · exact h
    next l hl =>
      obtain ⟨_, _, _, usages, hins, rfl⟩ := PolicyEngine.reserveWrite_ok hl
      exact h.reserve rfl hins rfl ⟨s.drawn, ctx.runId, version, after⟩ rfl rfl
  | settleRead usageId settlement =>
    unfold exec
    dsimp only
    split <;> exact h
  | settleWrite p =>
    exact h.update (p := ModelUsageService.Matches p) (f := fun r => r.settle p.settlement p.cost)
      (fun _ => rfl) (fun r hm => not_finished_of_matches hm) rfl rfl rfl
  | once op => exact imagesApart_once limits h op
  | done => exact h

theorem images_outline (limits : AdmissionLimits) :
    Outline (program limits) (fun _ _ => True) ImagesApart (fun _ _ => True) where
  wait _ _ h := h.of_same rfl rfl rfl
  waits _ _ _ _ := trivial
  call _ _ _ _ _ := trivial
  exec _ c h _ _ := ⟨imagesApart_exec limits h c, trivial⟩
  spares _ _ _ _ _ _ _ := trivial

/-! ## The sums of the two readers -/

theorem modelCalls_eq (s : Sessions) (q : String) :
    s.modelCalls q = (PolicyEngine.rowsOf s.usages q).filter (fun u => decide (s.IsReserved u)) := by
  show ((s.usages.rows.filter _).filter _) = (s.usages.rows.filter _).filter _
  rw [List.filter_filter, List.filter_filter]
  exact List.filter_congr fun u _ => Bool.and_comm ..

/-- The rows of a run are its model calls and its images. -/
theorem length_rowsOf (s : Sessions) (q : String) :
    (PolicyEngine.rowsOf s.usages q).length = (s.modelCalls q).length + (s.imageRows q).length := by
  rw [modelCalls_eq]
  unfold imageRows
  have hsplit := List.length_eq_countP_add_countP (fun u => decide (s.IsReserved u))
    (l := PolicyEngine.rowsOf s.usages q)
  rw [List.countP_eq_length_filter, List.countP_eq_length_filter] at hsplit
  rw [hsplit]
  congr 2
  exact List.filter_congr fun u _ => by simp

/-- A sum to which the images add nothing. -/
theorem sum_filter {M : Type} [AddMonoid M] {p : AgentModelUsage → Prop} [DecidablePred p]
    (f : AgentModelUsage → M) :
    ∀ l : List AgentModelUsage, (∀ u ∈ l, ¬ p u → f u = 0) →
      (l.map f).sum = ((l.filter (fun u => decide (p u))).map f).sum
  | [], _ => rfl
  | u :: l, h => by
    have hrest := sum_filter f l fun v hv => h v (List.mem_cons_of_mem _ hv)
    by_cases hp : p u
    · rw [List.filter_cons_of_pos (by simpa using hp), List.map_cons, List.map_cons, List.sum_cons,
        List.sum_cons, hrest]
    · rw [List.filter_cons_of_neg (by simpa using hp), List.map_cons, List.sum_cons,
        h u List.mem_cons_self hp, zero_add, hrest]

variable {s : Sessions}

theorem tokens_eq (h : ImagesApart s) (q : String) :
    ((PolicyEngine.rowsOf s.usages q).map PolicyEngine.usageTokens).sum
      = ((s.modelCalls q).map PolicyEngine.usageTokens).sum := by
  rw [modelCalls_eq]
  exact sum_filter _ _ fun u hu hnot =>
    (h.image u (List.mem_filter.mp hu).1 hnot).usageTokens

theorem cost_eq (h : ImagesApart s) (q : String) :
    ((PolicyEngine.rowsOf s.usages q).map PolicyEngine.usageCost).sum
      = ((s.modelCalls q).map PolicyEngine.usageCost).sum := by
  rw [modelCalls_eq]
  exact sum_filter _ _ fun u hu hnot => (h.image u (List.mem_filter.mp hu).1 hnot).usageCost

/-- The images of a run stand between its calls and a limit. -/
def Crossed (s : Sessions) (run : AgentRun) (limit : Option Int) : Prop :=
  ∃ n ∈ limit, ((s.modelCalls run.runId).length : Int) < n ∧
    n ≤ (s.modelCalls run.runId).length + (s.imageRows run.runId).length

/-- No call is refused for its number that would not be without the
images. -/
def CallsUnhindered (s : Sessions) (run : AgentRun) : Prop :=
  ∀ ctx route, PolicyEngine.evaluateBudget run s.usages ctx route
      = .error "MODEL_CALL_LIMIT_EXCEEDED" →
    PolicyEngine.evaluateBudget run s.modelUsages ctx route = .error "MODEL_CALL_LIMIT_EXCEEDED"

/-- No loop is refused that would not be without the images. -/
def LoopsUnhindered (s : Sessions) (run : AgentRun) : Prop :=
  BoundedLoop.deriveInheritedBudget run s.usages = .error "LOOP_BUDGET_EXHAUSTED" →
    BoundedLoop.deriveInheritedBudget run s.modelUsages = .error "LOOP_BUDGET_EXHAUSTED"

theorem callLimit_iff (run : AgentRun) (usages : UsageTable) (ctx : ModelCallContext)
    (route : ModelRoute) :
    PolicyEngine.evaluateBudget run usages ctx route = .error "MODEL_CALL_LIMIT_EXCEEDED" ↔
      ∃ n ∈ nonnegativeInt run.modelPolicy.maxModelCalls,
        n ≤ ((PolicyEngine.rowsOf usages run.runId).length : Int) := by
  unfold PolicyEngine.evaluateBudget
  dsimp only
  have hany : ∀ (o : Option Int) (p : Int → Prop) [DecidablePred p],
      o.any (fun n => decide (p n)) = true ↔ ∃ n ∈ o, p n := by
    intro o p _
    cases o <;> simp
  constructor
  · intro h
    split at h
    next hover => exact (hany _ _).mp hover
    · split at h
      · simp at h
      · split at h
        · simp at h
        · cases h
  · intro h
    rw [if_pos ((hany _ _).mpr h)]

theorem maxCalls_mem {run : AgentRun} {limits : FrozenLimits}
    (h : BoundedLoop.frozenLimits run = some limits) :
    limits.maxCalls ∈ nonnegativeInt run.modelPolicy.maxModelCalls := by
  unfold BoundedLoop.frozenLimits at h
  obtain ⟨maxCalls, hcalls, h⟩ := Option.bind_eq_some_iff.mp h
  obtain ⟨maxTokens, _, h⟩ := Option.bind_eq_some_iff.mp h
  obtain ⟨maxCost, _, h⟩ := Option.bind_eq_some_iff.mp h
  obtain ⟨maxSeconds, _, h⟩ := Option.bind_eq_some_iff.mp h
  cases h
  obtain ⟨hsome, hpos⟩ := Option.filter_eq_some_iff.mp hcalls
  refine Option.filter_eq_some_iff.mpr ⟨hsome, ?_⟩
  simp only [decide_eq_true_eq] at hpos ⊢
  exact Int.le_of_lt hpos

theorem callsUnhindered_iff (run : AgentRun) :
    CallsUnhindered s run ↔ ¬ Crossed s run (nonnegativeInt run.modelPolicy.maxModelCalls) := by
  unfold CallsUnhindered Crossed
  constructor
  · rintro h ⟨n, hn, hbelow, hreached⟩
    have hrefused := (callLimit_iff run s.usages sampleContext sampleRoute).mpr
      ⟨n, hn, by rw [length_rowsOf]; exact_mod_cast hreached⟩
    obtain ⟨m, hm, hle⟩ := (callLimit_iff run s.modelUsages _ _).mp (h _ _ hrefused)
    cases hn.symm.trans hm
    exact absurd hle (Int.not_le.mpr hbelow)
  · intro hnot ctx route h
    obtain ⟨n, hn, hle⟩ := (callLimit_iff run s.usages ctx route).mp h
    rw [length_rowsOf] at hle
    refine (callLimit_iff run s.modelUsages ctx route).mpr ⟨n, hn, ?_⟩
    by_contra hbelow
    exact hnot ⟨n, hn, Int.not_le.mp hbelow, by exact_mod_cast hle⟩

/-- What a loop starts with is short of model calls where the images cross
the limit, and for no other reason. -/
theorem loopsUnhindered_of_not_crossed (h : ImagesApart s) {run : AgentRun}
    (hnot : ¬ Crossed s run (nonnegativeInt run.modelPolicy.maxModelCalls)) :
    LoopsUnhindered s run := by
  intro hrefused
  unfold BoundedLoop.deriveInheritedBudget at hrefused ⊢
  cases hlimits : BoundedLoop.frozenLimits run with
  | none =>
    rw [hlimits] at hrefused
    simp at hrefused
  | some limits =>
    rw [hlimits] at hrefused
    dsimp only at hrefused ⊢
    split at hrefused
    next hspent =>
      rw [if_pos ?_]
      have htokens := tokens_eq h run.runId
      have hcost := cost_eq h run.runId
      unfold InheritedLoopBudget.Spent BoundedLoop.remaining BoundedLoop.usageSnapshot
        at hspent ⊢
      dsimp only at hspent ⊢
      rw [htokens, hcost] at hspent
      rcases hspent with hcalls | hrest
      · -- the calls alone reach the limit, or the images cross it
        refine Or.inl ?_
        by_contra hleft
        rw [length_rowsOf] at hcalls
        refine hnot ⟨limits.maxCalls, maxCalls_mem hlimits, ?_, by push_cast at hcalls; omega⟩
        have hsame : (PolicyEngine.rowsOf s.modelUsages run.runId) = s.modelCalls run.runId := rfl
        rw [hsame] at hleft
        omega
      · exact Or.inr hrest
    · cases hrefused

/-- Only the model calls of a run count towards its limits, and its images
refuse it nothing. -/
structure OnlyModelCallsCount (s : Sessions) (run : AgentRun) : Prop where
  calls : (BoundedLoop.usageSnapshot s.usages run.runId).1 = (s.modelCalls run.runId).length
  tokens : (BoundedLoop.usageSnapshot s.usages run.runId).2.1
    = ((s.modelCalls run.runId).map PolicyEngine.usageTokens).sum
  calling : CallsUnhindered s run
  looping : LoopsUnhindered s run

theorem imagesApart_run (limits : AdmissionLimits) (sys : Sys)
    (es : List (Interleave.Event UsageOp)) :
    ImagesApart (Runs.run (program limits).step (fresh sys) es).shared := by
  refine ((images_outline limits).run es _ ⟨⟨?_, ?_, ?_⟩, fun _ _ => trivial⟩ (meets_true es _)).1
  · exact fun u hu => by cases hu
  · exact fun r hr => by cases hr
  · exact fun u hu => by cases hu

/-- **What counts towards the limit on model calls.** In every state that
any sessions on the ledger reach, with calls and images of any runs in any
order: the budget of a run counts its model calls and nothing else exactly
where it has no image in the ledger; and its images refuse it no call and no
loop exactly where they do not stand between its calls and its limit. -/
theorem only_model_calls_count (limits : AdmissionLimits) (sys : Sys)
    (es : List (Interleave.Event UsageOp)) (run : AgentRun) :
    (OnlyModelCallsCount (Runs.run (program limits).step (fresh sys) es).shared run ↔
      imageRows (Runs.run (program limits).step (fresh sys) es).shared run.runId = []) ∧
    ((CallsUnhindered (Runs.run (program limits).step (fresh sys) es).shared run ∧
        LoopsUnhindered (Runs.run (program limits).step (fresh sys) es).shared run) ↔
      ¬ Crossed (Runs.run (program limits).step (fresh sys) es).shared run
        (nonnegativeInt run.modelPolicy.maxModelCalls)) := by
  have happart := imagesApart_run limits sys es
  generalize (Runs.run (program limits).step (fresh sys) es).shared = s at happart
  have hunhindered : (CallsUnhindered s run ∧ LoopsUnhindered s run) ↔
      ¬ Crossed s run (nonnegativeInt run.modelPolicy.maxModelCalls) :=
    ⟨fun h => (callsUnhindered_iff run).mp h.1,
      fun h => ⟨(callsUnhindered_iff run).mpr h, loopsUnhindered_of_not_crossed happart h⟩⟩
  have hrows := length_rowsOf s run.runId
  refine ⟨⟨fun h => ?_, fun hnone => ?_⟩, hunhindered⟩
  · have hcalls : (PolicyEngine.rowsOf s.usages run.runId).length = _ := h.calls
    exact List.eq_nil_of_length_eq_zero (by omega)
  · rw [hnone, List.length_nil, Nat.add_zero] at hrows
    have hnot : ¬ Crossed s run (nonnegativeInt run.modelPolicy.maxModelCalls) := by
      rintro ⟨n, _, hbelow, hreached⟩
      rw [hnone, List.length_nil] at hreached
      omega
    exact ⟨hrows, tokens_eq happart run.runId, (hunhindered.mpr hnot).1, (hunhindered.mpr hnot).2⟩

/-- Ten images of the run, one after the other. -/
def tenImages : List (Interleave.Event UsageOp) :=
  (List.range 10).flatMap fun n =>
    [⟨0, .call (.recordImage "run-1" 1 true)⟩, ⟨0, .advance n⟩]

/-- The code a reader refuses with. -/
def refusalCode {α : Type} : Except String α → Option String
  | .error code => some code
  | .ok _ => none

theorem eq_of_refusalCode {α : Type} {x : Except String α} {code : String}
    (h : refusalCode x = some code) : x = .error code := by
  cases x with
  | error c =>
    cases h
    rfl
  | ok a => cases h

/-- The run that may make ten calls has made none, and its first one is
refused, as is its loop. -/
theorem images_use_up_calls :
    (∃ run, loopingRun.db.runs.find? "run-1" = some run ∧
      modelCalls (Runs.run (program {}).step (fresh loopingRun) tenImages).shared "run-1" = [] ∧
      PolicyEngine.evaluateBudget run
        (Runs.run (program {}).step (fresh loopingRun) tenImages).shared.usages
        sampleContext sampleRoute = .error "MODEL_CALL_LIMIT_EXCEEDED" ∧
      BoundedLoop.deriveInheritedBudget run
        (Runs.run (program {}).step (fresh loopingRun) tenImages).shared.usages
        = .error "LOOP_BUDGET_EXHAUSTED") ∧
    ¬ ∀ (limits : AdmissionLimits) (sys : Sys) (es : List (Interleave.Event UsageOp))
      (run : AgentRun),
      OnlyModelCallsCount (Runs.run (program limits).step (fresh sys) es).shared run := by
  obtain ⟨run, hrun⟩ : ∃ run, loopingRun.db.runs.find? "run-1" = some run := ⟨_, rfl⟩
  have hcodes : (loopingRun.db.runs.find? "run-1").map (fun run =>
      (refusalCode (PolicyEngine.evaluateBudget run
          (Runs.run (program {}).step (fresh loopingRun) tenImages).shared.usages
          sampleContext sampleRoute),
        refusalCode (BoundedLoop.deriveInheritedBudget run
          (Runs.run (program {}).step (fresh loopingRun) tenImages).shared.usages)))
      = some (some "MODEL_CALL_LIMIT_EXCEEDED", some "LOOP_BUDGET_EXHAUSTED") := by
    decide +kernel
  have hnone : modelCalls (Runs.run (program {}).step (fresh loopingRun) tenImages).shared "run-1"
      = [] := List.eq_nil_of_length_eq_zero (by decide +kernel)
  rw [hrun] at hcodes
  have hpair := Option.some.inj hcodes
  have hcall := eq_of_refusalCode (congrArg Prod.fst hpair)
  have hloop := eq_of_refusalCode (congrArg Prod.snd hpair)
  refine ⟨⟨run, hrun, hnone, hcall, hloop⟩, fun h => ?_⟩
  have hid : run.runId = "run-1" := Table.key_of_find? hrun
  have hcounted := (h {} loopingRun tenImages run).calls
  rw [hid, hnone] at hcounted
  exact absurd hcounted (by decide +kernel)

end Sessions

end AgentRuntime
