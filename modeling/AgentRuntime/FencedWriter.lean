import AgentRuntime.Perform

/-!
# One writer at a time

The lease columns of a run are a fence (`fenceOf`): its token, and the end
of the lease while the run is claimed. `RunStep.fenceStep` checks that every
move is a fence step — only a claim grants a token, only a heartbeat on a
live lease renews — so the library's rule applies: a context that has lost
the lease never gets it back (`step_driven`).

The other half is about the contexts themselves: their tokens grow with
every claim and never exceed the row's (`IssuedInv`). `fenced_single_writer`
puts the two together.
-/

namespace AgentRuntime

open Keyed Fencing

/-- The fence a row stands for. -/
def AgentRun.fence (run : AgentRun) : Fence Time :=
  ⟨run.fencingToken, if run.dispatchState = .claimed then run.leaseExpiresAt else none⟩

/-- The fence of the run `q`; before its creation nobody holds it. -/
def fenceOf (q : String) (s : Sys) : Fence Time :=
  match s.db.runs.find? q with
  | none => ⟨0, none⟩
  | some run => run.fence

variable {limits : AdmissionLimits} {now : Time} {causes : Cause → AgentRun → Prop}

@[simp] theorem fence_afterEvent (run : AgentRun) (event : Option String) :
    (run.afterEvent event).fence = run.fence := by
  cases event <;> rfl

/-- A row that is not claimed afterwards has dropped the lease. -/
theorem fenceStep_drop {r r' : AgentRun} (ht : r'.fencingToken = r.fencingToken)
    (hd : r'.dispatchState ≠ .claimed) : FenceStep now r.fence r'.fence := by
  have hf : r'.fence = ⟨r.fence.token, none⟩ := by
    simp [AgentRun.fence, ht, hd]
  rw [hf]
  exact .cut none (not_heldAfter_none now)

/-- Every move is a step of the fence. -/
theorem Move.fenceStep {r r' : AgentRun} {shift : Shift} {event : Option String}
    (h : Move limits now causes r r' shift event) : FenceStep now r.fence r'.fence := by
  cases h with
  | start => exact fenceStep_drop rfl (by simp [AgentRun.start])
  | cancelNow => exact fenceStep_drop rfl (by simp [AgentRun.cancelNow])
  | retry => exact fenceStep_drop rfl (by simp [AgentRun.retry])
  | approve => exact fenceStep_drop rfl (by simp [AgentRun.decideQueued])
  | reject => exact fenceStep_drop rfl (by simp [AgentRun.rejectFailed])
  | claim _ _ leaseSeconds owner =>
    exact .grant (some (now + seconds leaseSeconds))
  | renew hd hl t =>
    have hheld : heldAfter r.fence.until? now := by simpa [AgentRun.fence, hd] using hl
    have hf : (r.leaseUntil t).fence = ⟨r.fence.token, some t⟩ := by
      simp [AgentRun.fence, AgentRun.leaseUntil, hd]
    rw [hf]
    exact .renew (some t) hheld
  | drain hd =>
    have hf : (r.leaseUntil now).fence = ⟨r.fence.token, some now⟩ := by
      simp [AgentRun.fence, AgentRun.leaseUntil, hd]
    rw [hf]
    exact .cut (some now) (by simp)
  | finish => exact fenceStep_drop rfl (by simp [AgentRun.endWith])
  | pause => exact fenceStep_drop rfl (by simp [AgentRun.pauseUntil])
  | reap => exact fenceStep_drop rfl (by simp [AgentRun.reap])
  | terminate => exact fenceStep_drop rfl (by simp [AgentRun.terminate])
  | fallback => exact fenceStep_drop rfl (by simp [AgentRun.requeueFallback])
  | _ => exact .keep

theorem newRun_fence (q : String) (command : CreateRunCommand) (definition : AgentDefinition)
    (policy : PackagePolicy) (callerId tenantId : String) (av : Int) (t : Time) :
    (newRun q command definition policy callerId tenantId av t).fence = ⟨0, none⟩ := by
  unfold AgentRun.fence newRun
  simp

/-- **The lease columns of every run behave as a fence.** -/
theorem step_driven (limits : AdmissionLimits) (q : String) :
    Driven (step limits) (fenceOf q) Sys.clock where
  clock_le s e := by simp
  fenceStep s e := by
    rw [clock_step]
    unfold fenceOf
    cases step_runStep limits s e q with
    | same h =>
      rw [h.row]
      exact .keep
    | created hnone command definition policy callerId tenantId av hrow =>
      rw [hnone, hrow]
      simp only [newRun_fence]
      exact .keep
    | moved r r' shift event hfind hmove hrow =>
      rw [hfind, hrow]
      simp only [fence_afterEvent]
      exact hmove.fenceStep

/-! ## The issued contexts -/

/-- Run and token of the issued contexts, in the order of the claims. -/
def tokens (issued : List Issued) : List (String × Nat) :=
  issued.map fun held => (held.runId, held.ctx.fencingToken)

theorem claim_context {db db' : Db} {leaseSeconds : Nat} {id owner : String} {ctx : LeaseContext}
    (h : LeaseService.claim db now leaseSeconds id owner = .ok (db', some ctx)) :
    ∃ run, db.runs.find? id = some run ∧ ctx.fencingToken = run.fencingToken + 1 ∧
      ctx.executionAttempt = run.executionAttempt + 1 ∧
      db'.runs.find? id = some (run.claimBy now leaseSeconds owner) := by
  unfold LeaseService.claim at h
  split at h
  · cases h
  next run hfind =>
    split at h
    · obtain ⟨db₁, hadm, h⟩ := bind_ok.mp h
      cases h
      refine ⟨run, hfind, rfl, rfl, ?_⟩
      have hruns := (transitionRun_sameRun hadm id).row
      have hid : run.runId = id := Table.key_of_find? hfind
      subst hid
      exact hruns.trans (Table.find?_put_self (a := run.claimBy now leaseSeconds owner) hfind)
    · cases h

/-- A heartbeat only moves the end of the lease. -/
theorem heartbeat_context (db : Db) (leaseSeconds : Nat) (id : String) (ctx : LeaseContext) :
    ∃ t, (LeaseService.heartbeat db now leaseSeconds id ctx).2.1
      = { ctx with leaseExpiresAt := t } := by
  unfold LeaseService.heartbeat
  split
  · exact ⟨ctx.leaseExpiresAt, rfl⟩
  · split
    · exact ⟨_, rfl⟩
    · exact ⟨ctx.leaseExpiresAt, rfl⟩

/-- What is put in the place of an entry is the same to `f`. -/
theorem map_set_same {α β : Type} {f : α → β} {l : List α} {i : Nat} {a b : α}
    (hi : l[i]? = some a) (hf : f b = f a) : (l.set i b).map f = l.map f := by
  rw [List.map_set]
  apply List.ext_getElem?
  intro k
  rw [List.getElem?_set]
  by_cases hk : i = k
  · subst hk
    obtain ⟨hlt, rfl⟩ := List.getElem?_eq_some_iff.mp hi
    simp [hf, hlt]
  · simp [hk]

theorem tokens_set {issued : List Issued} {i : Nat} {held : Issued} {ctx : LeaseContext}
    (hi : issued[i]? = some held) (ht : ctx.fencingToken = held.ctx.fencingToken) :
    tokens (issued.set i ⟨held.runId, ctx⟩) = tokens issued :=
  map_set_same hi (congrArg (Prod.mk held.runId) ht)

/-- An operation keeps the contexts it finds, but for the end of a lease, and
a claim adds the next one of its run. -/
theorem perform_issued {db db' : Db} {issued issued' : List Issued} {op : Op}
    (h : perform limits db now issued op = .ok (db', issued')) :
    issued' = issued ∨
      (∃ i held t, issued[i]? = some held ∧
        issued' = issued.set i ⟨held.runId, { held.ctx with leaseExpiresAt := t }⟩) ∨
      ∃ run run' held, db.runs.find? held.runId = some run ∧
        db'.runs.find? held.runId = some run' ∧ run'.fencingToken = run.fencingToken + 1 ∧
        held.ctx.fencingToken = run.fencingToken + 1 ∧
        held.ctx.executionAttempt = run.executionAttempt + 1 ∧ issued' = issued ++ [held] := by
  cases op with
  | claim runId owner leaseSeconds =>
    obtain ⟨⟨db₁, ctx?⟩, hop, h⟩ := bind_ok.mp h
    cases ctx? with
    | none =>
      cases h
      exact Or.inl rfl
    | some ctx =>
      cases h
      obtain ⟨run, hfind, ht, ha, hfind'⟩ := claim_context hop
      exact Or.inr (Or.inr ⟨run, _, ⟨runId, ctx⟩, hfind, hfind', rfl, ht, ha, rfl⟩)
  | heartbeat i leaseSeconds =>
    rcases withContext_ok h with ⟨_, rfl⟩ | ⟨held, hi, h⟩
    · exact Or.inl rfl
    · cases h
      obtain ⟨t, hctx⟩ := @heartbeat_context now db leaseSeconds held.runId held.ctx
      exact Or.inr (Or.inl ⟨i, held, t, hi,
        congrArg (fun ctx => issued.set i ⟨held.runId, ctx⟩) hctx⟩)
  | write i w =>
    left
    rcases withContext_ok h with ⟨_, rfl⟩ | ⟨held, hi, h⟩
    · rfl
    · split at h
      · cases h
        rfl
      · split at h
        · obtain ⟨_, _, h⟩ := bind_ok.mp h
          cases h
          rfl
        · cases h
          rfl
  | finish i | releaseForDrain i | finishAfterInvalidBoundary i | pauseForHuman i =>
    left
    rcases withContext_ok h with ⟨_, rfl⟩ | ⟨held, hi, h⟩
    · rfl
    · first
        | cases h; rfl
        | obtain ⟨_, _, h⟩ := bind_ok.mp h
          cases h
          rfl
  | repairRun runId resolver =>
    left
    simp only [perform] at h
    split at h
    · cases h
      rfl
    · obtain ⟨_, _, h⟩ := bind_ok.mp h
      cases h
      rfl
  | repairDeadLetter k =>
    left
    simp only [perform] at h
    split at h
    · cases h
      rfl
    · split at h
      · obtain ⟨_, _, h⟩ := bind_ok.mp h
        cases h
        rfl
      · cases h
        rfl
  | register | deliver =>
    left
    cases h
    rfl
  | _ =>
    left
    obtain ⟨_, _, h⟩ := bind_ok.mp h
    cases h
    rfl

/-- An operation keeps the tokens it finds, and a claim adds the next token
of its run. -/
theorem perform_tokens {db db' : Db} {issued issued' : List Issued} {op : Op}
    (h : perform limits db now issued op = .ok (db', issued')) :
    tokens issued' = tokens issued ∨
      ∃ id run run', db.runs.find? id = some run ∧ db'.runs.find? id = some run' ∧
        run'.fencingToken = run.fencingToken + 1 ∧
        tokens issued' = tokens issued ++ [(id, run.fencingToken + 1)] := by
  rcases perform_issued h with rfl | ⟨i, held, t, hi, rfl⟩ | ⟨run, run', held, hfind, hfind', ht,
    hctx, _, rfl⟩
  · exact Or.inl rfl
  · exact Or.inl (tokens_set hi rfl)
  · refine Or.inr ⟨held.runId, run, run', hfind, hfind', ht, ?_⟩
    simp [tokens, hctx]

/-- The tokens of the contexts, against each other and against the rows. -/
structure IssuedInv (s : Sys) : Prop where
  increasing : (tokens s.issued).Pairwise (fun a b => a.1 = b.1 → a.2 < b.2)
  le_row : ∀ p ∈ tokens s.issued, p.2 ≤ (fenceOf p.1 s).token

theorem issuedInv_step (limits : AdmissionLimits) (s : Sys) (e : Event) (h : IssuedInv s) :
    IssuedInv (step limits s e) := by
  have hmono : ∀ q, (fenceOf q s).token ≤ (fenceOf q (step limits s e)).token := fun q =>
    ((step_driven limits q).fenceStep s e).token_le
  have hold : ∀ p ∈ tokens s.issued, p.2 ≤ (fenceOf p.1 (step limits s e)).token :=
    fun p hp => le_trans (h.le_row p hp) (hmono p.1)
  rcases step_cases limits s e with ⟨db, issued, hop, hs⟩ | hs
  · have hissued : (step limits s e).issued = issued := by rw [hs]
    rcases perform_tokens hop with ht | ⟨id, run, run', hfind, hfind', htok, ht⟩
    · exact ⟨by rw [hissued, ht]; exact h.increasing, by rw [hissued, ht]; exact hold⟩
    · have hrow : fenceOf id s = run.fence := by simp [fenceOf, hfind]
      have hrow' : fenceOf id (step limits s e) = run'.fence := by simp [fenceOf, hs, hfind']
      constructor
      · rw [hissued, ht, List.pairwise_append]
        refine ⟨h.increasing, List.pairwise_singleton _ _, fun a ha b hb hab => ?_⟩
        rw [List.mem_singleton] at hb
        subst hb
        have hle := h.le_row a ha
        rw [show a.1 = id from hab, hrow] at hle
        exact Nat.lt_succ_of_le hle
      · intro p hp
        rw [hissued, ht, List.mem_append, List.mem_singleton] at hp
        rcases hp with hp | rfl
        · exact hold p hp
        · rw [hrow']
          exact le_of_eq htok.symm
  · exact ⟨by rw [hs]; exact h.increasing, by
      intro p hp
      exact hold p (by rwa [hs] at hp)⟩

/-- The tokens of a state stay in front of those of every later state. -/
theorem tokens_prefix (limits : AdmissionLimits) (es : List Event) (s : Sys) :
    tokens s.issued <+: tokens (Runs.run (step limits) s es).issued := by
  refine Runs.run_mono (R := fun a b => tokens a.issued <+: tokens b.issued)
    (fun _ => List.prefix_refl _) (by intro a b c h₁ h₂; exact List.IsPrefix.trans h₁ h₂)
    (fun t e => ?_) es s
  rcases step_cases limits t e with ⟨db, issued, hop, hs⟩ | hs
  · rw [hs]
    rcases perform_tokens hop with ht | ⟨id, run, run', _, _, _, ht⟩
    · exact ⟨[], (List.append_nil _).trans ht.symm⟩
    · show tokens t.issued <+: tokens issued
      rw [ht]
      exact List.prefix_append _ _
  · exact ⟨[], by rw [hs, List.append_nil]⟩

/-! ## Who may write -/

/-- The holder of the `i`-th context passes `can_write` at `now`. -/
def CanWrite (s : Sys) (now : Time) (i : Nat) : Prop :=
  ∃ held, s.issued[i]? = some held ∧ LeaseService.canWrite s.db now held.runId held.ctx = true

/-- The holder of the `i`-th context gets its heartbeat through at `now`. -/
def Renews (s : Sys) (now : Time) (i leaseSeconds : Nat) : Prop :=
  ∃ held, s.issued[i]? = some held ∧
    (LeaseService.heartbeat s.db now leaseSeconds held.runId held.ctx).2.2 = true

/-- The holder of the `i`-th context ends its run at `now`. -/
def Finishes (s : Sys) (now : Time) (i : Nat) : Prop :=
  ∃ held status errorCode db', s.issued[i]? = some held ∧
    LeaseService.finish s.db now ⟨held.runId, status, errorCode⟩ held.ctx = .ok (db', true)

/-- The holder of the `i`-th context pauses its run at `now`. -/
def Pauses (s : Sys) (now : Time) (i : Nat) : Prop :=
  ∃ held timeout db', s.issued[i]? = some held ∧
    LeaseService.pauseForHuman s.db now held.runId held.ctx timeout = .ok (db', true)

/-- The `i`-th context has lost its run: a later claim was made, the lease of
the row is over, or nobody holds the run. -/
inductive Lost (s : Sys) (i : Nat) : Prop
  | claimed (held other : Issued) (j : Nat) (hi : s.issued[i]? = some held)
      (hj : s.issued[j]? = some other) (hlt : i < j) (hrun : other.runId = held.runId)
  | expired (held : Issued) (run : AgentRun) (hi : s.issued[i]? = some held)
      (hfind : s.db.runs.find? held.runId = some run)
      (h : ¬ heldAfter run.leaseExpiresAt s.clock)
  | takenOver (held : Issued) (run : AgentRun) (hi : s.issued[i]? = some held)
      (hfind : s.db.runs.find? held.runId = some run) (h : run.dispatchState ≠ .claimed)

theorem live_of_owned {s : Sys} {q : String} {run : AgentRun} {ctx : LeaseContext}
    (hfind : s.db.runs.find? q = some run) (hown : run.OwnedBy ctx)
    (hl : heldAfter run.leaseExpiresAt now) : Live (fenceOf q s) ctx.fencingToken now := by
  have hf : fenceOf q s = run.fence := by simp [fenceOf, hfind]
  rw [hf]
  exact ⟨hown.2.2, by simpa [AgentRun.fence, hown.1] using hl⟩

theorem CanWrite.live {s : Sys} {i : Nat} (h : CanWrite s now i) :
    ∃ held, s.issued[i]? = some held ∧
      Live (fenceOf held.runId s) held.ctx.fencingToken now := by
  obtain ⟨held, hi, hw⟩ := h
  unfold LeaseService.canWrite at hw
  split at hw
  · cases hw
  next run hfind =>
    obtain ⟨hown, _, hl, _⟩ := of_decide_eq_true hw
    exact ⟨held, hi, live_of_owned hfind hown hl⟩

theorem Renews.live {s : Sys} {i leaseSeconds : Nat} (h : Renews s now i leaseSeconds) :
    ∃ held, s.issued[i]? = some held ∧
      Live (fenceOf held.runId s) held.ctx.fencingToken now := by
  obtain ⟨held, hi, hr⟩ := h
  unfold LeaseService.heartbeat at hr
  split at hr
  · cases hr
  next run hfind =>
    split at hr
    next hren =>
      obtain ⟨hown, _, _, hl, _⟩ := hren
      exact ⟨held, hi, live_of_owned hfind hown hl⟩
    · cases hr

theorem Finishes.canWrite {s : Sys} {i : Nat} (h : Finishes s now i) : CanWrite s now i := by
  obtain ⟨held, status, errorCode, db', hi, hf⟩ := h
  refine ⟨held, hi, ?_⟩
  unfold LeaseService.finish at hf
  unfold LeaseService.canWrite
  split at hf
  · cases hf
  next run hfind =>
    split at hf
    next hw =>
      rw [show s.db.runs.find? held.runId = some run from hfind]
      exact decide_eq_true hw.2
    · cases hf

theorem Pauses.canWrite {s : Sys} {i : Nat} (h : Pauses s now i) : CanWrite s now i := by
  obtain ⟨held, timeout, db', hi, hf⟩ := h
  refine ⟨held, hi, ?_⟩
  unfold LeaseService.pauseForHuman at hf
  unfold LeaseService.canWrite
  split at hf
  · cases hf
  next run hfind =>
    split at hf
    next hw => exact decide_eq_true hw.2
    · cases hf

theorem getElem?_tokens {issued : List Issued} {i : Nat} {held : Issued}
    (h : issued[i]? = some held) :
    (tokens issued)[i]? = some (held.runId, held.ctx.fencingToken) := by
  simp [tokens, h]

theorem IssuedInv.lt_of_lt {s : Sys} (h : IssuedInv s) {i j : Nat} {a b : Issued}
    (hi : s.issued[i]? = some a) (hj : s.issued[j]? = some b) (hlt : i < j)
    (hrun : b.runId = a.runId) : a.ctx.fencingToken < b.ctx.fencingToken := by
  obtain ⟨hi', hia⟩ := List.getElem?_eq_some_iff.mp (getElem?_tokens hi)
  obtain ⟨hj', hjb⟩ := List.getElem?_eq_some_iff.mp (getElem?_tokens hj)
  have hp := List.pairwise_iff_getElem.mp h.increasing i j hi' hj' hlt
  rw [hia, hjb] at hp
  exact hp hrun.symm

theorem IssuedInv.le_fence {s : Sys} (h : IssuedInv s) {i : Nat} {a : Issued}
    (hi : s.issued[i]? = some a) : a.ctx.fencingToken ≤ (fenceOf a.runId s).token :=
  h.le_row (a.runId, a.ctx.fencingToken) (List.mem_of_getElem? (getElem?_tokens hi))

/-- A lost context has lapsed. -/
theorem Lost.lapsed {s : Sys} {i : Nat} (hinv : IssuedInv s) (h : Lost s i) :
    ∃ held, s.issued[i]? = some held ∧
      Lapsed (fenceOf held.runId s) held.ctx.fencingToken s.clock := by
  cases h with
  | claimed held other j hi hj hlt hrun =>
    refine ⟨held, hi, Or.inl (lt_of_lt_of_le (hinv.lt_of_lt hi hj hlt hrun) ?_)⟩
    rw [← hrun]
    exact hinv.le_fence hj
  | expired held run hi hfind h =>
    refine ⟨held, hi, (lt_or_eq_of_le (hinv.le_fence hi)).imp id fun heq => ⟨heq, ?_⟩⟩
    have hf : fenceOf held.runId s = run.fence := by simp [fenceOf, hfind]
    rw [hf, AgentRun.fence]
    split
    · exact h
    · exact not_heldAfter_none _
  | takenOver held run hi hfind h =>
    refine ⟨held, hi, (lt_or_eq_of_le (hinv.le_fence hi)).imp id fun heq => ⟨heq, ?_⟩⟩
    have hf : fenceOf held.runId s = run.fence := by simp [fenceOf, hfind]
    rw [hf, AgentRun.fence, if_neg h]
    exact not_heldAfter_none _

/-- A lost context is powerless in every later state. -/
theorem lost_not_live {s : Sys} {i : Nat} (hinv : IssuedInv s) (hlost : Lost s i)
    (es : List Event) {later : Time} (hle : (Runs.run (step limits) s es).clock ≤ later)
    {held : Issued} (hi : (Runs.run (step limits) s es).issued[i]? = some held) :
    ¬ Live (fenceOf held.runId (Runs.run (step limits) s es)) held.ctx.fencingToken later := by
  obtain ⟨held₀, hi₀, hlap⟩ := hlost.lapsed hinv
  obtain ⟨rest, hrest⟩ := tokens_prefix limits es s
  have hsame : (held₀.runId, held₀.ctx.fencingToken) = (held.runId, held.ctx.fencingToken) := by
    have h₀ := getElem?_tokens hi₀
    have h₁ := getElem?_tokens hi
    rw [← hrest, List.getElem?_append_left (List.getElem?_eq_some_iff.mp h₀).1, h₀] at h₁
    exact Option.some.inj h₁
  obtain ⟨hrun, htok⟩ := Prod.mk.inj hsame
  rw [hrun, htok] at hlap
  exact (((step_driven limits held.runId).lapsed_run es s hlap).later hle).not_live

/-- What the lease guarantees in the states of a run from `s`. -/
structure SingleWriter (limits : AdmissionLimits) (s : Sys) : Prop where
  /-- The tokens of a run's contexts grow from claim to claim. -/
  tokens_increase : ∀ (i j : Nat) (a b : Issued), s.issued[i]? = some a → s.issued[j]? = some b → i < j →
    b.runId = a.runId → a.ctx.fencingToken < b.ctx.fencingToken
  /-- At any instant one context of a run at most can write or renew. -/
  unique : ∀ (now : Time) (i j : Nat) (a b : Issued) (m n : Nat), s.issued[i]? = some a → s.issued[j]? = some b →
    b.runId = a.runId → (CanWrite s now i ∨ Renews s now i m) →
    (CanWrite s now j ∨ Renews s now j n) → i = j
  /-- A context that has lost its run can do nothing to it ever again. -/
  lost_forever : ∀ i, Lost s i → ∀ es later,
    (Runs.run (step limits) s es).clock ≤ later →
    ¬ CanWrite (Runs.run (step limits) s es) later i ∧
    (∀ n, ¬ Renews (Runs.run (step limits) s es) later i n) ∧
    ¬ Finishes (Runs.run (step limits) s es) later i ∧
    ¬ Pauses (Runs.run (step limits) s es) later i

theorem IssuedInv.singleWriter {s : Sys} (h : IssuedInv s) : SingleWriter limits s where
  tokens_increase i j a b hi hj hlt hrun := h.lt_of_lt hi hj hlt hrun
  unique now i j a b m n hi hj hrun h₁ h₂ := by
    have hlive : ∀ {k : Nat} {c : Issued} {p : Nat}, s.issued[k]? = some c →
        (CanWrite s now k ∨ Renews s now k p) →
        Live (fenceOf c.runId s) c.ctx.fencingToken now := by
      intro k c p hk hor
      obtain ⟨held, hheld, hl⟩ := hor.elim CanWrite.live Renews.live
      rw [hk] at hheld
      cases hheld
      exact hl
    have hl₁ := hlive hi h₁
    have hl₂ := hlive hj h₂
    rw [hrun] at hl₂
    have heq := live_unique hl₁ hl₂
    rcases Nat.lt_trichotomy i j with hlt | rfl | hlt
    · exact absurd heq (Nat.ne_of_lt (h.lt_of_lt hi hj hlt hrun))
    · rfl
    · exact absurd heq (Nat.ne_of_gt (h.lt_of_lt hj hi hlt hrun.symm))
  lost_forever i hlost es later hle := by
    have hno : ¬ ∃ held, (Runs.run (step limits) s es).issued[i]? = some held ∧
        Live (fenceOf held.runId (Runs.run (step limits) s es)) held.ctx.fencingToken later := by
      rintro ⟨held, hi, hl⟩
      exact lost_not_live h hlost es hle hi hl
    exact ⟨fun hw => hno hw.live, fun n hr => hno hr.live, fun hf => hno hf.canWrite.live,
      fun hp => hno hp.canWrite.live⟩

/-- **Fenced single writer.** Whatever the database holds at first, after any
sequence of operations: tokens grow with every claim, one context of a run at
most can write or renew, and a context that has lost its run — to a later
claim, to the clock or to the reaper — has lost it for good. -/
theorem fenced_single_writer (limits : AdmissionLimits) (db : Db) (clock : Time)
    (es : List Event) :
    SingleWriter limits (Runs.run (step limits) { db := db, clock := clock } es) := by
  have h₀ : IssuedInv { db := db, clock := clock } :=
    ⟨List.Pairwise.nil, fun p hp => absurd hp List.not_mem_nil⟩
  exact (Runs.run_inv (issuedInv_step limits) es _ h₀).singleWriter

end AgentRuntime
