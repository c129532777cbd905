import AgentRuntime.UsageSessions

/-!
# The states of a model call

What the sessions can do to one row of the ledger, in any order: activate it
once, start it once and only then, cancel it while it is reserved, settle it
once. `Lawful` says so of the row's history.

The last clause of the law, that a row leaves an unknown outcome only for a
report that carries the provider's identity, is the one the code does not
keep. `settle` asks for the identity only where its read saw the unknown
outcome, and its update matches that status in any case: a report that read
the row in flight settles it although it expired meanwhile
(`expired_call_settled`). `KnowsIdentity` says of a settling update that it
is not such a report, and the law holds exactly along the runs whose
settlements all meet it (`lawful_iff`).
-/

namespace AgentRuntime

open Keyed Runs Interleave

namespace Change

def isActivation (c : Change) : Bool :=
  match c.kind with
  | .activated => true
  | _ => false

def isStart (c : Change) : Bool :=
  match c.kind with
  | .started => true
  | _ => false

def isCancellation (c : Change) : Bool :=
  match c.kind with
  | .cancelled => true
  | _ => false

/-- The change settles the row for good. -/
def writesFinal (c : Change) : Bool :=
  match c.kind with
  | .settled s => s.outcome.status.isFinal
  | _ => false

/-- The change is a settlement that carries the identity the row has. -/
def Identified (c : Change) : Prop :=
  ∃ s, c.kind = .settled s ∧ s.providerRequestId ≠ none ∧
    c.found.providerRequestId = s.providerRequestId

instance (c : Change) : Decidable c.Identified :=
  match h : c.kind with
  | .settled s =>
    decidable_of_iff (s.providerRequestId ≠ none ∧ c.found.providerRequestId = s.providerRequestId)
      (by unfold Identified; simp [h])
  | .activated => isFalse (by unfold Identified; simp [h])
  | .started => isFalse (by unfold Identified; simp [h])
  | .cancelled => isFalse (by unfold Identified; simp [h])
  | .expired => isFalse (by unfold Identified; simp [h])

end Change

/-- The history of a row, as the states of a model call allow it. -/
structure Lawful (h : List Change) : Prop where
  activated_once : h.countP Change.isActivation ≤ 1
  activated_reserved : ∀ c ∈ h, c.isActivation = true → c.found.status = .reserved
  started_once : h.countP Change.isStart ≤ 1
  started_after : ∀ pre c post, h = pre ++ c :: post → c.isStart = true →
    ∃ a ∈ pre, a.isActivation = true
  cancelled : ∀ c ∈ h, c.isCancellation = true → ∀ a ∈ h, a.isActivation = false
  final_once : h.countP Change.writesFinal ≤ 1
  final_kept : ∀ pre c post, h = pre ++ c :: post → c.writesFinal = true → post = []
  unknown_left : ∀ c ∈ h, c.found.status = .outcomeUnknown → c.Identified

theorem Lawful.nil : Lawful [] := by
  refine ⟨Nat.zero_le _, ?_, Nat.zero_le _, ?_, ?_, Nat.zero_le _, ?_, ?_⟩ <;> simp

theorem snoc_split {α : Type} {h pre post : List α} {c d : α} (heq : h ++ [c] = pre ++ d :: post) :
    (post = [] ∧ pre = h ∧ d = c) ∨ ∃ post', post = post' ++ [c] ∧ h = pre ++ d :: post' := by
  rcases List.eq_nil_or_concat post with rfl | ⟨post', e, rfl⟩
  · obtain ⟨rfl, hd⟩ := List.append_inj' heq rfl
    cases hd
    exact Or.inl ⟨rfl, rfl, rfl⟩
  · rw [List.concat_eq_append, ← List.cons_append, ← List.append_assoc] at heq
    obtain ⟨hh, he⟩ := List.append_inj' heq rfl
    cases he
    exact Or.inr ⟨post', List.concat_eq_append, hh⟩

theorem countP_snoc_le {α : Type} {p : α → Bool} {h : List α} {c : α} (hold : h.countP p ≤ 1)
    (hnew : p c = true → ∀ d ∈ h, p d = false) : (h ++ [c]).countP p ≤ 1 := by
  rw [List.countP_append, List.countP_singleton]
  by_cases hc : p c = true
  · have : h.countP p = 0 := List.countP_eq_zero.mpr fun d hd => by simp [hnew hc d hd]
    simp [hc, this]
  · simpa [hc] using hold

/-- A lawful history, and a change that comes lawfully after it. -/
theorem Lawful.snoc {h : List Change} {c : Change} (hl : Lawful h)
    (hfinal : ∀ d ∈ h, d.writesFinal = false)
    (hact : c.isActivation = true → c.found.status = .reserved ∧
      ∀ d ∈ h, d.isActivation = false ∧ d.isCancellation = false)
    (hstart : c.isStart = true → (∀ d ∈ h, d.isStart = false) ∧ ∃ a ∈ h, a.isActivation = true)
    (hcancel : c.isCancellation = true → c.isActivation = false ∧ ∀ d ∈ h, d.isActivation = false)
    (hunknown : c.found.status = .outcomeUnknown → c.Identified) : Lawful (h ++ [c]) where
  activated_once := countP_snoc_le hl.activated_once fun hc d hd => ((hact hc).2 d hd).1
  activated_reserved d hd ha := by
    rcases List.mem_append.mp hd with hold | hnew
    · exact hl.activated_reserved d hold ha
    · cases List.mem_singleton.mp hnew
      exact (hact ha).1
  started_once := countP_snoc_le hl.started_once fun hc => (hstart hc).1
  started_after pre d post heq hd := by
    rcases snoc_split heq with ⟨_, rfl, rfl⟩ | ⟨post', _, hh⟩
    · exact (hstart hd).2
    · exact hl.started_after pre d post' hh hd
  cancelled d hd hdc a ha := by
    rcases List.mem_append.mp hd with hold | hnew
    · rcases List.mem_append.mp ha with hold' | hnew'
      · exact hl.cancelled d hold hdc a hold'
      · cases List.mem_singleton.mp hnew'
        by_contra hact'
        have := ((hact (Bool.eq_true_of_not_eq_false hact')).2 d hold).2
        rw [hdc] at this
        cases this
    · cases List.mem_singleton.mp hnew
      rcases List.mem_append.mp ha with hold' | hnew'
      · exact (hcancel hdc).2 a hold'
      · cases List.mem_singleton.mp hnew'
        exact (hcancel hdc).1
  final_once := countP_snoc_le hl.final_once fun _ => hfinal
  final_kept pre d post heq hd := by
    rcases snoc_split heq with ⟨rfl, _, _⟩ | ⟨post', _, hh⟩
    · rfl
    · have := hfinal d (by rw [hh]; simp)
      rw [hd] at this
      cases this
  unknown_left d hd hdu := by
    rcases List.mem_append.mp hd with hold | hnew
    · exact hl.unknown_left d hold hdu
    · cases List.mem_singleton.mp hnew
      exact hunknown hdu

/-! ## A row and its history -/

/-- What a row tells about its history. -/
structure Told (row : Option AgentModelUsage) (h : List Change) : Prop where
  lawful : Lawful h
  reserved : ∀ r ∈ row, r.status = .reserved → h = []
  running : ∀ r ∈ row, r.status = .running → ∃ a : Change, a.kind = .activated ∧ h = [a]
  unsettled : ∀ r ∈ row, r.status.isFinal = false → ∀ c ∈ h, c.writesFinal = false

/-- The settling update is not a report that read the row in flight and
finds its outcome unknown, unless it carries the identity of the row. -/
def KnowsIdentity (s : Sessions) (c : Statement) : Prop :=
  match c with
  | .settleWrite p =>
    p.settlement.outcome.isLate = true → p.seen ≠ .outcomeUnknown →
      ∀ r ∈ s.usages.find? p.usageId, r.status = .outcomeUnknown →
        p.settlement.providerRequestId ≠ none ∧
          r.providerRequestId = p.settlement.providerRequestId
  | _ => True

/-- What a session about to settle has checked. -/
def Checked (c : Statement) : Prop :=
  match c with
  | .settleWrite p =>
    p.settlement.outcome.isLate = true → p.seen = .outcomeUnknown →
      p.settlement.providerRequestId ≠ none
  | _ => True

/-- Leaving an unknown outcome takes the identity of the row. -/
theorem identified_of_matches {s : Sessions} {p : ModelUsageService.PendingSettle}
    {r : AgentModelUsage} (hfind : s.usages.find? p.usageId = some r)
    (hm : ModelUsageService.Matches p r) (hchecked : Checked (.settleWrite p))
    (hknows : KnowsIdentity s (.settleWrite p)) (hr : r.status = .outcomeUnknown) :
    Change.Identified ⟨r, .settled p.settlement⟩ := by
  obtain ⟨hallowed, hsame⟩ := hm
  have hlate : p.settlement.outcome.isLate = true := by
    rw [hr] at hallowed
    unfold ModelUsageService.allowedStatuses at hallowed
    split at hallowed
    next h => exact h
    · simp at hallowed
  by_cases hseen : p.seen = .outcomeUnknown
  · exact ⟨p.settlement, rfl, hchecked hlate hseen, hsame ⟨hlate, hseen⟩⟩
  · obtain ⟨hid, heq⟩ := hknows hlate hseen r hfind hr
    exact ⟨p.settlement, rfl, hid, heq⟩

/-- A settling update finds the row in flight, or its outcome unknown. -/
theorem unsettled_of_matches {p : ModelUsageService.PendingSettle} {r : AgentModelUsage}
    (hm : ModelUsageService.Matches p r) : r.status.isFinal = false ∧ r.status ≠ .reserved := by
  have hallowed := hm.1
  unfold ModelUsageService.allowedStatuses at hallowed
  split at hallowed
  · simp only [List.mem_cons, List.not_mem_nil, or_false] at hallowed
    rcases hallowed with h | h | h <;> simp [h, UsageStatus.isFinal]
  · simp only [List.mem_cons, List.not_mem_nil, or_false] at hallowed
    rcases hallowed with h | h <;> simp [h, UsageStatus.isFinal]

/-! ## Every run -/

/-- A row the ledger holds tells about its history; an identifier not drawn
yet has neither. -/
def Accounted (s : Sessions) : Prop :=
  ∀ u, (s.drawn ≤ u → s.usages.find? u = none ∧ s.historyOf u = []) ∧
    Told (s.usages.find? u) (s.historyOf u)

theorem Told.none {h : List Change} (hl : Lawful h) : Told none h where
  lawful := hl
  reserved := by simp
  running := by simp
  unsettled := by simp

theorem Told.fresh {r : AgentModelUsage} (hr : r.status ≠ .running) : Told (some r) [] where
  lawful := .nil
  reserved := by simp
  running r' hr' hs := by
    cases hr'
    exact absurd hs hr
  unsettled := by simp

/-- A row past `running` after one more change. -/
theorem Told.snoc {h : List Change} {c : Change} {r : AgentModelUsage} (hl : Lawful (h ++ [c]))
    (hr : r.status ≠ .reserved ∧ r.status ≠ .running)
    (hopen : r.status.isFinal = false →
      (∀ d ∈ h, d.writesFinal = false) ∧ c.writesFinal = false) : Told (some r) (h ++ [c]) where
  lawful := hl
  reserved r' hr' hs := by
    cases hr'
    exact absurd hs hr.1
  running r' hr' hs := by
    cases hr'
    exact absurd hs hr.2
  unsettled r' hr' hs d hd := by
    cases hr'
    rcases List.mem_append.mp hd with hold | hnew
    · exact (hopen hs).1 d hold
    · rw [List.mem_singleton.mp hnew]
      exact (hopen hs).2

theorem told_activated {h : List Change} {r : AgentModelUsage} (ht : Told (some r) h)
    (hs : r.status = .reserved) (permitId : String) :
    Told (some (r.activate permitId)) (h ++ [⟨r, .activated⟩]) := by
  obtain rfl := ht.reserved r rfl hs
  refine ⟨Lawful.nil.snoc (by simp) (fun _ => ⟨hs, by simp⟩) ?_ ?_ ?_, ?_, ?_, ?_⟩
  · intro h; cases h
  · intro h; cases h
  · intro h
    rw [hs] at h
    cases h
  · intro r' hr' hst
    cases hr'
    cases hst
  · intro r' hr' _
    exact ⟨_, rfl, rfl⟩
  · intro r' _ _ c hc
    rw [List.mem_singleton.mp hc]
    rfl

theorem told_started {h : List Change} {r : AgentModelUsage} (ht : Told (some r) h)
    (hs : r.status = .running) : Told (some r.start) (h ++ [⟨r, .started⟩]) := by
  obtain ⟨a, ha, rfl⟩ := ht.running r rfl hs
  have hopen := ht.unsettled r rfl (by rw [hs]; rfl)
  refine .snoc (ht.lawful.snoc hopen ?_ ?_ ?_ ?_) ⟨by simp [AgentModelUsage.start], by
    simp [AgentModelUsage.start]⟩ (fun _ => ⟨hopen, rfl⟩)
  · intro h; cases h
  · intro _
    simp [Change.isStart, Change.isActivation, ha]
  · intro h; cases h
  · intro h
    rw [hs] at h
    cases h

theorem told_cancelled {h : List Change} {r : AgentModelUsage} (ht : Told (some r) h)
    (hs : r.status = .reserved) : Told none (h ++ [⟨r, .cancelled⟩]) := by
  obtain rfl := ht.reserved r rfl hs
  refine .none (Lawful.nil.snoc (by simp) ?_ ?_ (fun _ => ⟨rfl, by simp⟩) ?_)
  · intro h; cases h
  · intro h; cases h
  · intro h
    rw [hs] at h
    cases h

theorem told_expired {h : List Change} {r : AgentModelUsage} {current : Time}
    (ht : Told (some r) h) (hexp : r.Expired current) :
    Told (some (r.expire current)) (h ++ [⟨r, .expired⟩]) := by
  have hflight := hexp.1
  have hr : r.status.isFinal = false ∧ r.status ≠ .outcomeUnknown := by
    cases hst : r.status <;> rw [hst] at hflight <;> simp_all [UsageStatus.inFlight,
      UsageStatus.isFinal]
  have hopen := ht.unsettled r rfl hr.1
  have hafter : (r.expire current).status = .outcomeUnknown := by
    unfold AgentModelUsage.expire
    rw [if_pos hexp]
  refine .snoc (ht.lawful.snoc hopen ?_ ?_ ?_ ?_) (by rw [hafter]; decide)
    (fun _ => ⟨hopen, rfl⟩)
  · intro h; cases h
  · intro h; cases h
  · intro h; cases h
  · intro h
    exact absurd h hr.2

theorem told_settled {h : List Change} {r : AgentModelUsage}
    {p : ModelUsageService.PendingSettle} (ht : Told (some r) h)
    (hm : ModelUsageService.Matches p r)
    (hid : r.status = .outcomeUnknown → Change.Identified ⟨r, .settled p.settlement⟩) :
    Told (some (r.settle p.settlement p.cost)) (h ++ [⟨r, .settled p.settlement⟩]) := by
  have hopen := ht.unsettled r rfl (unsettled_of_matches hm).1
  have hafter : (r.settle p.settlement p.cost).status = p.settlement.outcome.status := rfl
  refine .snoc (ht.lawful.snoc hopen ?_ ?_ ?_ hid) ?_ ?_
  · intro h; cases h
  · intro h; cases h
  · intro h; cases h
  · rw [hafter]
    cases p.settlement.outcome <;> decide
  · intro hnot
    rw [hafter] at hnot
    exact ⟨hopen, hnot⟩

/-- What a statement that meets the condition makes of a row and its
history. -/
theorem told_rowStep {s : Sessions} {c : Statement} {drawn u : Nat} {row : Option AgentModelUsage}
    {cs : List Change} (hs : s.RowStep c drawn u row cs) (ht : Told (s.usages.find? u) (s.historyOf u))
    (hfresh : s.drawn ≤ u → s.historyOf u = []) (hchecked : Checked c)
    (hknows : KnowsIdentity s c) : Told row (s.historyOf u ++ cs) := by
  cases hs with
  | same => simpa using ht
  | reserved hu hd ctx route =>
    rw [hfresh hu.ge]
    exact .fresh (by simp [PolicyEngine.newUsage])
  | image hu hd runId executionAttempt succeeded now =>
    rw [hfresh hu.ge]
    exact .fresh (by cases succeeded <;> simp [Sessions.imageUsage])
  | activated r hfind hs permitId => exact told_activated (hfind ▸ ht) hs permitId
  | started r hfind hs => exact told_started (hfind ▸ ht) hs
  | cancelled r hfind hs => exact told_cancelled (hfind ▸ ht) hs
  | expired r hfind current hexp => exact told_expired (hfind ▸ ht) hexp
  | settled r hfind p hc hp hm =>
    subst hc hp
    exact told_settled (hfind ▸ ht) hm (identified_of_matches hfind hm hchecked hknows)

/-- An identifier that is not drawn has no row and no history. -/
theorem rowStep_undrawn {s : Sessions} {c : Statement} {drawn u : Nat}
    {row : Option AgentModelUsage} {cs : List Change} (hs : s.RowStep c drawn u row cs)
    (hnone : s.usages.find? u = none) (hu : drawn ≤ u) : row = none ∧ cs = [] := by
  cases hs with
  | same => exact ⟨hnone, rfl⟩
  | reserved _ hd => omega
  | image _ hd => omega
  | activated r hfind => exact absurd (hnone.symm.trans hfind) (by simp)
  | started r hfind => exact absurd (hnone.symm.trans hfind) (by simp)
  | cancelled r hfind => exact absurd (hnone.symm.trans hfind) (by simp)
  | expired r hfind => exact absurd (hnone.symm.trans hfind) (by simp)
  | settled r hfind => exact absurd (hnone.symm.trans hfind) (by simp)

/-- A session about to settle has checked what it saw. -/
theorem checked_exec (limits : AdmissionLimits) (s : Sessions) (c : Statement) :
    Checked (Sessions.exec limits s c).2 := by
  cases c with
  | settleRead usageId settlement =>
    simp only [Sessions.exec]
    split
    next p hp =>
      obtain ⟨_, _, hp⟩ := bind_ok.mp hp
      obtain ⟨_, _, hp⟩ := bind_ok.mp hp
      obtain ⟨_, _, hp⟩ := bind_ok.mp hp
      obtain ⟨_, _, hp⟩ := bind_ok.mp hp
      obtain ⟨_, _, hp⟩ := bind_ok.mp hp
      split at hp
      · cases hp
      next hcond =>
        cases hp
        intro hlate hseen hnone
        exact hcond ⟨hlate, hseen, Or.inl hnone⟩
    · trivial
  | reserveRead ctx route tries =>
    simp only [Sessions.exec]
    split <;> trivial
  | reserveWrite ctx route tries version after =>
    simp only [Sessions.exec, Sessions.reserveWrite]
    split
    · trivial
    · split <;> trivial
    · trivial
  | settleWrite p => trivial
  | once op => trivial
  | done => trivial

/-- The outline: every row tells about its history, every settlement has
checked what it saw. -/
theorem states_outline (limits : AdmissionLimits) :
    Outline (Sessions.program limits) KnowsIdentity Accounted (fun _ c => Checked c) where
  wait s t h := h
  waits s t c h := h
  call s op c _ hcall := by
    cases hcall
    cases op <;> trivial
  exec s c hI hJ hP := by
    refine ⟨fun u => ?_, checked_exec limits s c⟩
    show (Sessions.drawn _ ≤ u → _ ∧ Sessions.historyOf (Sessions.exec limits s c).1 u = []) ∧
      Told _ (Sessions.historyOf (Sessions.exec limits s c).1 u)
    obtain ⟨hfresh, htold⟩ := hI u
    obtain ⟨hdrawn, cs, hstep, hhistory⟩ := Sessions.exec_stepsRow limits s c u
    rw [hhistory]
    refine ⟨fun hu => ?_, told_rowStep hstep htold (fun hu => (hfresh hu).2) hJ hP⟩
    obtain ⟨hnone, hnil⟩ := hfresh (hdrawn.trans hu)
    obtain ⟨hrow, rfl⟩ := rowStep_undrawn hstep hnone hu
    exact ⟨hrow, by simp [hnil]⟩
  spares s c d _ _ _ hd := hd

/-! ## The law and its condition -/

theorem accounted_fresh (sys : Sys) :
    Asserted Accounted (fun _ c => Checked c) (Sessions.fresh sys) := by
  refine ⟨fun u => ⟨fun _ => ⟨rfl, rfl⟩, .none .nil⟩, ?_⟩
  simp [Sessions.fresh]

/-- A history only grows. -/
theorem history_step (limits : AdmissionLimits) (w : World Sessions Statement)
    (e : Interleave.Event UsageOp) (u : Nat) :
    w.shared.historyOf u <+: ((Sessions.program limits).step w e).shared.historyOf u := by
  unfold Program.step
  cases e.move with
  | call op => exact List.prefix_refl _
  | advance i =>
    cases hcall : w.calls[i]? with
    | none => simp only [hcall]; exact List.prefix_refl _
    | some c =>
      simp only [hcall]
      obtain ⟨_, cs, _, hhistory⟩ := Sessions.exec_stepsRow limits
        ((Sessions.program limits).wait w.shared e.elapsed) c u
      exact ⟨cs, hhistory.symm⟩

theorem history_run (limits : AdmissionLimits) (u : Nat) :
    ∀ (es : List (Interleave.Event UsageOp)) (w : World Sessions Statement),
      w.shared.historyOf u <+:
        (Runs.run (Sessions.program limits).step w es).shared.historyOf u
  | [], _ => List.prefix_refl _
  | e :: es, w => (history_step limits w e u).trans (history_run limits u es _)

/-- What is unlawful about leaving an unknown outcome stays in the history. -/
theorem identified_of_prefix {h h' : List Change} (hpre : h <+: h') (hl : Lawful h') :
    ∀ c ∈ h, c.found.status = .outcomeUnknown → c.Identified :=
  fun c hc => hl.unknown_left c (hpre.subset hc)

/-- A settlement that does not know the identity leaves the unknown outcome
all the same. -/
theorem knowsIdentity_of_identified (limits : AdmissionLimits) {s : Sessions} {c : Statement}
    (h : ∀ u, ∀ c' ∈ (Sessions.exec limits s c).1.historyOf u,
      c'.found.status = .outcomeUnknown → c'.Identified) : KnowsIdentity s c := by
  cases c with
  | settleWrite p =>
    intro hlate hseen r hfind hr
    have hm : ModelUsageService.Matches p r := by
      refine ⟨?_, fun hboth => absurd hboth.2 hseen⟩
      rw [hr]
      unfold ModelUsageService.allowedStatuses
      rw [if_pos hlate]
      simp
    rcases s.record_cases p.usageId (.settled p.settlement) (ModelUsageService.Matches p)
      (fun r => r.settle p.settlement p.cost) (fun _ => rfl) p.usageId with
      ⟨r', _, hfind', _, _, hhistory⟩ | ⟨hnot, _⟩
    · cases hfind.symm.trans hfind'
      have hlast : (⟨r, .settled p.settlement⟩ : Change) ∈
          (Sessions.exec limits s (.settleWrite p)).1.historyOf p.usageId := by
        show _ ∈ Sessions.historyOf (s.record _ _ (s.usages.updateWhere _ _ _)) _
        rw [hhistory]
        simp
      obtain ⟨settlement, hkind, hid, heq⟩ := h p.usageId _ hlast hr
      cases hkind
      exact ⟨hid, heq⟩
    · exact absurd hm (hnot rfl r hfind)
  | _ => trivial

/-- Where every history ends up lawful, no settlement went without the
identity. -/
theorem meets_of_lawful (limits : AdmissionLimits) :
    ∀ (es : List (Interleave.Event UsageOp)) (w : World Sessions Statement),
      (∀ u, Lawful ((Runs.run (Sessions.program limits).step w es).shared.historyOf u)) →
      Along (Sessions.program limits).step ((Sessions.program limits).Meets KnowsIdentity) w es
  | [], _, _ => trivial
  | e :: es, w, h => by
    refine ⟨?_, meets_of_lawful limits es _ h⟩
    unfold Program.Meets
    cases hmove : e.move with
    | call op => trivial
    | advance i =>
      intro c hc
      refine knowsIdentity_of_identified limits fun u => ?_
      have hstep : ((Sessions.program limits).step w e).shared
          = (Sessions.exec limits ((Sessions.program limits).wait w.shared e.elapsed) c).1 := by
        have hcall : w.calls[i]? = some c := hc
        unfold Program.step
        rw [hmove]
        simp only [hcall]
        rfl
      rw [← hstep]
      exact identified_of_prefix (history_run limits u es _) (h u)

/-- **The states of a model call.** From a ledger without rows, whatever the
runs are, sessions that reserve, activate, start, cancel, settle and expire
model calls in any order keep every row's history lawful exactly when every
report that settles an unknown outcome knows its identity. -/
theorem ModelUsageService.settle_lawful (limits : AdmissionLimits) (sys : Sys)
    (es : List (Interleave.Event UsageOp)) :
    (∀ u, Lawful ((Runs.run (Sessions.program limits).step (Sessions.fresh sys) es).shared.historyOf
      u)) ↔
      Along (Sessions.program limits).step ((Sessions.program limits).Meets KnowsIdentity)
        (Sessions.fresh sys) es := by
  refine ⟨meets_of_lawful limits es _, fun h u => ?_⟩
  exact (((states_outline limits).run es _ (accounted_fresh sys) h).1 u).2.lawful

/-- The report of a success reads the row in flight; the call expires; the
report settles it without an identity. -/
def expiredCall : List (Interleave.Event UsageOp) :=
  startedCall ++
    [ask (.settle 0 { outcome := .succeeded }), advance 3,
     ask (.markExpired (seconds 61)), advance 4, advance 3]

theorem expired_call_settled :
    ¬ ∀ (limits : AdmissionLimits) (sys : Sys) (es : List (Interleave.Event UsageOp)) (u : Nat),
      Lawful ((Runs.run (Sessions.program limits).step (Sessions.fresh sys) es).shared.historyOf
        u) := by
  intro h
  have hall := (h {} callingRun expiredCall 0).unknown_left
  have hnot : ((Runs.run (Sessions.program {}).step (Sessions.fresh callingRun)
      expiredCall).shared.historyOf 0).all
        (fun c => decide (c.found.status = .outcomeUnknown → c.Identified)) = false := rfl
  rw [List.all_eq_true.mpr fun c hc => decide_eq_true (hall c hc)] at hnot
  cases hnot

end AgentRuntime
