import AgentRuntime.SendAttempt
import AgentRuntime.LeakedReservation

/-!
# Requests that were sent

A row whose request has left must not be booked as one that was not:
`aborted_before_send` frees the slot of the budget and costs nothing. The
attempt alone settles its row, so the question is what the attempt at
`provider.call` (`Invoking`) still writes. It settles the row as not sent
exactly where its reply is lost (`SendWorld.LosesReply`) and the settlement
reaches the row (`WritesBack`).

`StartedRow` and `Spared` are asserted under the custody of the rows: the
first says what a row is where the provider is called, the second what an
attempt may still do to the row `u`.
-/

namespace AgentRuntime

open Keyed Runs Interleave

namespace Gateway

/-- The row `u` is there, and its status meets `P`. -/
def RowIs (P : UsageStatus → Prop) (usages : UsageTable) (u : Nat) : Prop :=
  ∃ r, usages.find? u = some r ∧ P r.status

/-- Neither settled as a request that was not sent, nor open to be cancelled
as one. -/
def SentStatus (s : UsageStatus) : Prop :=
  s ≠ .reserved ∧ s ≠ .abortedBeforeSend

/-- A request that is under way, or was when its deadline passed. -/
def StartedStatus (s : UsageStatus) : Prop :=
  s = .started ∨ s = .outcomeUnknown

/-- Settled as a request that was sent. -/
def DecidedStatus (s : UsageStatus) : Prop :=
  s = .succeeded ∨ s = .failed ∨ s = .rateLimited ∨ s = .outcomeUnknown

theorem RowIs.mono {P Q : UsageStatus → Prop} {usages : UsageTable} {u : Nat}
    (h : RowIs P usages u) (himp : ∀ s, P s → Q s) : RowIs Q usages u := by
  obtain ⟨r, hfind, hP⟩ := h
  exact ⟨r, hfind, himp _ hP⟩

theorem RowIs.of_find {P : UsageStatus → Prop} {usages usages' : UsageTable} {u : Nat}
    (hfind : usages'.find? u = usages.find? u) (h : RowIs P usages u) : RowIs P usages' u := by
  obtain ⟨r, hr, hP⟩ := h
  exact ⟨r, hfind.trans hr, hP⟩

/-- A conditional update keeps what it establishes where it matches. -/
theorem RowIs.update {P : UsageStatus → Prop} {usages : UsageTable} {u : Nat}
    {p : AgentModelUsage → Prop} [DecidablePred p] {f : AgentModelUsage → AgentModelUsage}
    (h : RowIs P usages u) (hkey : ∀ r, (f r).usageId = r.usageId)
    (hnew : ∀ r, P r.status → p r → P (f r).status) :
    RowIs P (usages.updateWhere u p f).1 u := by
  obtain ⟨r, hfind, hP⟩ := h
  rcases usages.updateWhere_cases u p f with ⟨r', hfind', hp, heq⟩ | ⟨_, heq⟩
  · cases hfind.symm.trans hfind'
    have hid : (f r).usageId = u := (hkey r).trans (Table.key_of_find? hfind)
    refine ⟨f r, ?_, hnew r hP hp⟩
    rw [heq, ← hid]
    exact Table.find?_put_self (hid.symm ▸ hfind)
  · rw [heq]
    exact ⟨r, hfind, hP⟩

theorem status_expire (r : AgentModelUsage) (current : Time) :
    (r.expire current).status = r.status ∨
      (r.status.inFlight = true ∧ (r.expire current).status = .outcomeUnknown) := by
  unfold AgentModelUsage.expire
  split
  next hexp => exact Or.inr ⟨hexp.1, rfl⟩
  next => exact Or.inl rfl

theorem RowIs.expire {P : UsageStatus → Prop} {usages : UsageTable} {u : Nat} (current : Time)
    (h : RowIs P usages u) (hP : ∀ s, P s → s.inFlight = true → P .outcomeUnknown) :
    RowIs P (ModelUsageService.markExpiredRunningUnknown usages current) u := by
  obtain ⟨r, hfind, hr⟩ := h
  refine ⟨r.expire current, ?_, ?_⟩
  · unfold ModelUsageService.markExpiredRunningUnknown
    rw [Table.find?_mapRows, hfind]
    rfl
  · rcases status_expire r current with heq | ⟨hflight, heq⟩
    · rw [heq]
      exact hr
    · rw [heq]
      exact hP _ hr hflight

/-- What a call does to a row it does not have: nothing, or the expiry. -/
theorem RowIs.exec {limits : AdmissionLimits} {P : UsageStatus → Prop} {g : Gateway} {c : Running}
    {u : Nat} (hJ : SoundRunning g c) (hu : u < g.drawn) (hnot : ¬ Has c u)
    (h : RowIs P g.usages u) (hP : ∀ s, P s → s.inFlight = true → P .outcomeUnknown) :
    RowIs P ((program limits).exec g c).1.usages u := by
  cases c with
  | attempt a =>
    show RowIs P (g.exec a).1.usages u
    rcases exec_cases g hJ with ⟨_, heq⟩ | ⟨_, hadv⟩
    · rw [heq]
      exact h
    · refine h.of_find (hadv.other u hnot fun hnew => ?_)
      rcases hadv.takes u hnew with hold | ⟨_, rfl, _⟩
      · exact hnot hold
      · exact absurd hu (Nat.lt_irrefl _)
  | markExpired current => exact h.expire current hP
  | lifecycle op => exact h
  | done => exact h

/-! ## The row where the provider is called -/

/-- An attempt at `provider.call` has flushed nothing, and its row is
started. -/
def StartedRow (g : Gateway) (c : Running) : Prop :=
  match c with
  | .attempt a =>
    ∀ u, a.phase = .started u → a.flushed = [] ∧ RowIs StartedStatus g.usages u
  | _ => True

theorem startedStatus_expires (s : UsageStatus) (_ : StartedStatus s) (_ : s.inFlight = true) :
    StartedStatus .outcomeUnknown :=
  Or.inr rfl

/-- `mark_started` matches only to leave its row started. -/
theorem markStarted_ok {usages usages' : UsageTable} {u : Nat}
    (h : ModelUsageService.markStarted usages u = (usages', true)) :
    RowIs StartedStatus usages' u := by
  unfold ModelUsageService.markStarted at h
  rcases usages.updateWhere_cases u (fun r => r.status = .running) AgentModelUsage.start with
    ⟨r, hfind, _, heq⟩ | ⟨_, heq⟩
  · rw [heq] at h
    cases h
    have hid : r.start.usageId = u := Table.key_of_find? (a := r) hfind
    refine ⟨r.start, ?_, Or.inl rfl⟩
    rw [← hid]
    exact Table.find?_put_self (hid.symm ▸ hfind)
  · rw [heq] at h
    cases h

/-- Only the commit of `mark_started` leads to the call of the provider. -/
theorem startedRow_advance (g : Gateway) (a : Attempt) (u : Nat)
    (h : (g.advance a).2.phase = .started u) :
    (g.advance a).2.flushed = [] ∧ RowIs StartedStatus (g.advance a).1.usages u := by
  unfold advance at h ⊢
  cases hphase : a.phase with
  | activated v =>
    rw [hphase] at h
    dsimp only at h ⊢
    unfold start at h ⊢
    cases hsendable : a.fate.sendable with
    | yes =>
      rw [hsendable] at h
      dsimp only at h ⊢
      rcases hm : ModelUsageService.markStarted (flushAll v g.usages a.flushed) v with ⟨usages, ok⟩
      rw [hm] at h
      cases ok with
      | true =>
        cases h
        exact ⟨rfl, markStarted_ok hm⟩
      | false => cases h
    | no =>
      rw [hsendable] at h
      cases h
    | raises =>
      rw [hsendable] at h
      cases h
  | entered =>
    rw [hphase] at h
    dsimp only at h
    split at h
    · cases h
    · split at h <;> cases h
  | reserved v =>
    rw [hphase] at h
    dsimp only [attach] at h
    split at h
    · cases h
    · split at h
      · cases h
      · split at h
        · cases h
        · split at h <;> cases h
  | attached v =>
    rw [hphase] at h
    dsimp only [acquire] at h
    split at h <;> cases h
  | granted v =>
    rw [hphase] at h
    dsimp only [activate] at h
    split at h
    · cases h
    · split at h <;> cases h
  | started v =>
    rw [hphase] at h
    cases h
  | settling v sent reply =>
    rw [hphase] at h
    dsimp only [settle] at h
    split at h <;> cases h
  | returned v sent status =>
    rw [hphase] at h
    dsimp only at h
    split at h <;> cases h
  | closed status =>
    rw [hphase] at h
    dsimp only at h
    rw [hphase] at h
    cases h

theorem startedRow_exec (limits : AdmissionLimits) (g : Gateway) (c : Running) :
    StartedRow ((program limits).exec g c).1 ((program limits).exec g c).2 := by
  cases c with
  | attempt a =>
    show StartedRow (g.exec a).1 (.attempt (g.exec a).2)
    intro u hu
    unfold exec at hu ⊢
    split
    next hdead =>
      rw [if_pos hdead] at hu
      cases hu
    next hlives =>
      rw [if_neg hlives] at hu
      exact startedRow_advance g { a with lives := a.lives - 1 } u hu
  | markExpired current => trivial
  | lifecycle op => trivial
  | done => trivial

theorem started_custody (limits : AdmissionLimits) :
    Custody (program limits) (fun _ _ => True) (fun g => Drawn g ∧ True)
      (fun g c => SoundRunning g c ∧ StartedRow g c) Has (fun g u => g.drawn ≤ u) :=
  (attempts_custody limits).and
    (fun _ _ _ => trivial)
    (fun g t c h => by cases c <;> exact h)
    (fun g op c hcall => by
      cases op <;> cases hcall
      · exact fun u hu => by cases hu
      · trivial
      · trivial)
    (fun g c _ _ _ _ _ => ⟨trivial, startedRow_exec limits g c⟩)
    (fun g c d hc hd hrow hapart => by
      cases d with
      | attempt b =>
        intro u hu
        have hhas : b.phase.usage? = some u := by rw [hu]; rfl
        exact ⟨(hrow u hu).1, (hrow u hu).2.exec hc (Sound.lt hd hhas)
          (fun h => hapart u h hhas) startedStatus_expires⟩
      | _ => trivial)

/-! ## What an attempt may still write -/

theorem settleRead_settlement {usages : UsageTable} {u : Nat} {s : Settlement}
    {p : ModelUsageService.PendingSettle}
    (h : ModelUsageService.settleRead usages u s = .ok (some p)) : p.settlement = s := by
  obtain ⟨_, _, h⟩ := bind_ok.mp h
  obtain ⟨_, _, h⟩ := bind_ok.mp h
  obtain ⟨_, _, h⟩ := bind_ok.mp h
  obtain ⟨_, _, h⟩ := bind_ok.mp h
  obtain ⟨_, _, h⟩ := bind_ok.mp h
  split at h
  · cases h
  · cases h
    rfl

/-- A settlement of the row leaves a decided row decided: a row settled as
not sent was in flight. -/
theorem RowIs.settle_decided {usages : UsageTable} {p : ModelUsageService.PendingSettle}
    (h : RowIs DecidedStatus usages p.usageId) :
    RowIs DecidedStatus (ModelUsageService.settleWrite usages p).1 p.usageId := by
  refine h.update (fun _ => rfl) fun r hr hmatch => ?_
  show DecidedStatus p.settlement.outcome.status
  cases hout : p.settlement.outcome with
  | abortedBeforeSend =>
    have hflight := hmatch.1
    rw [hout] at hflight
    rcases hr with hs | hs | hs | hs <;> rw [hs] at hflight <;>
      simp [ModelUsageService.allowedStatuses, Outcome.isLate] at hflight
  | _ => simp [DecidedStatus, Outcome.status]

theorem RowIs.settle_sent {usages : UsageTable} {p : ModelUsageService.PendingSettle}
    (hout : p.settlement.outcome ≠ .abortedBeforeSend) (h : RowIs SentStatus usages p.usageId) :
    RowIs SentStatus (ModelUsageService.settleWrite usages p).1 p.usageId := by
  refine h.update (fun _ => rfl) fun r _ _ => ?_
  show SentStatus p.settlement.outcome.status
  cases hcase : p.settlement.outcome with
  | abortedBeforeSend => exact absurd hcase hout
  | _ => simp [SentStatus, Outcome.status]

theorem decided_sent (s : UsageStatus) (h : DecidedStatus s) : SentStatus s := by
  rcases h with rfl | rfl | rfl | rfl <;> simp [SentStatus]

theorem RowIs.flush_decided {u : Nat} :
    ∀ (flushed : List Flush) (usages : UsageTable), OnlySettles u flushed →
      RowIs DecidedStatus usages u → RowIs DecidedStatus (flushAll u usages flushed) u
  | [], _, _, h => h
  | f :: rest, usages, hf, h => by
    obtain ⟨p, rfl, hp⟩ := hf f List.mem_cons_self
    refine RowIs.flush_decided rest _ (fun f' hf' => hf f' (List.mem_cons_of_mem _ hf')) ?_
    subst hp
    exact h.settle_decided

/-- Nothing flushed is a settlement as not sent. -/
def NoneUnsent (flushed : List Flush) : Prop :=
  ∀ p, Flush.settle p ∈ flushed → p.settlement.outcome ≠ .abortedBeforeSend

theorem RowIs.flush_sent {u : Nat} :
    ∀ (flushed : List Flush) (usages : UsageTable), OnlySettles u flushed → NoneUnsent flushed →
      RowIs SentStatus usages u → RowIs SentStatus (flushAll u usages flushed) u
  | [], _, _, _, h => h
  | f :: rest, usages, hf, hout, h => by
    obtain ⟨p, rfl, hp⟩ := hf f List.mem_cons_self
    refine RowIs.flush_sent rest _ (fun f' hf' => hf f' (List.mem_cons_of_mem _ hf'))
      (fun p' hp' => hout p' (List.mem_cons_of_mem _ hp')) ?_
    subst hp
    exact h.settle_sent (hout p List.mem_cons_self)

end Gateway

/-- How many statements an attempt runs from its call of the provider to
its commit. -/
def Phase.toCommit : Phase → Nat
  | .started _ => 3
  | .settling _ _ _ => 2
  | .returned _ _ _ => 1
  | _ => 0

/-- What an attempt has flushed, and what it will flush, settles its row as
sent. -/
def Attempt.BooksSent (a : Attempt) : Prop :=
  Gateway.NoneUnsent a.flushed ∧ (a.fate.settles = true →
    match a.phase with
    | .started _ => ¬ a.fate.provider.BooksUnsent
    | .settling _ _ reply => ¬ reply.BooksUnsent
    | _ => True)

namespace Gateway

/-- An attempt that has the row `u` is past `mark_started`, and what it
still does leaves the row booked as sent: it commits nothing, it does not
live to, the row is decided, or it settles it as sent. -/
def SparesRow (u : Nat) (g : Gateway) (a : Attempt) : Prop :=
  a.phase.usage? = some u → a.phase.window = none ∧
    (a.fate.commits = false ∨ a.lives < a.phase.toCommit ∨
      RowIs DecidedStatus g.usages u ∨ a.BooksSent)

def Spared (u : Nat) (g : Gateway) (c : Running) : Prop :=
  match c with
  | .attempt a => SparesRow u g a
  | _ => True

/-- The row `u` has been drawn, and is booked as sent. -/
def BookedSent (u : Nat) (g : Gateway) : Prop :=
  u < g.drawn ∧ RowIs SentStatus g.usages u

theorem sentStatus_expires (s : UsageStatus) (_ : SentStatus s) (_ : s.inFlight = true) :
    SentStatus .outcomeUnknown :=
  ⟨by simp, by simp⟩

theorem decidedStatus_expires (s : UsageStatus) (_ : DecidedStatus s) (_ : s.inFlight = true) :
    DecidedStatus .outcomeUnknown :=
  Or.inr (Or.inr (Or.inr rfl))

/-- What is flushed once the settlement has been read. -/
theorem noneUnsent_settle {flushed : List Flush} {usages : UsageTable} {u : Nat}
    {route : ModelRoute} {reply : ProviderReply} {p : ModelUsageService.PendingSettle}
    (hold : NoneUnsent flushed) (hreply : ¬ reply.BooksUnsent)
    (hread : ModelUsageService.settleRead usages u (settlementOf route reply) = .ok (some p)) :
    NoneUnsent (flushed ++ [.settle p]) := by
  intro p' hp'
  rcases List.mem_append.mp hp' with h | h
  · exact hold p' h
  · cases List.mem_singleton.mp h
    rw [settleRead_settlement hread]
    exact fun hout => hreply ((reply.booksUnsent_iff route).mpr hout)

/-- The next statement of an attempt that has the row. -/
theorem spares_advance {g : Gateway} {a : Attempt} {u : Nat} (hs : Sound g a)
    (hhas : a.phase.usage? = some u) (hlives : a.lives ≠ 0) (hrow : RowIs SentStatus g.usages u)
    (h : SparesRow u g a) :
    RowIs SentStatus (g.advance { a with lives := a.lives - 1 }).1.usages u ∧
      SparesRow u (g.advance { a with lives := a.lives - 1 }).1
        (g.advance { a with lives := a.lives - 1 }).2 := by
  obtain ⟨hwindow, hspares⟩ := h hhas
  unfold Attempt.BooksSent at hspares
  unfold advance
  cases hphase : a.phase with
  | entered | closed => simp [hphase, Phase.usage?] at hhas
  | reserved v | attached v | granted v | activated v => simp [hphase, Phase.window] at hwindow
  | started v =>
    rw [hphase] at hspares
    refine ⟨hrow, fun _ => ⟨rfl, ?_⟩⟩
    rcases hspares with h | h | h | h
    · exact Or.inl h
    · refine Or.inr (Or.inl ?_)
      show a.lives - 1 < 2
      have : a.lives < 3 := h
      omega
    · exact Or.inr (Or.inr (Or.inl h))
    · exact Or.inr (Or.inr (Or.inr h))
  | settling v sent reply =>
    rw [hphase] at hspares
    cases sent with
    | false => simp [hphase, Phase.window] at hwindow
    | true =>
      dsimp only [settle]
      split
      next p hsettles hread =>
        refine ⟨hrow, fun _ => ⟨rfl, ?_⟩⟩
        rcases hspares with h | h | h | ⟨hflushed, hreply⟩
        · exact Or.inl h
        · refine Or.inr (Or.inl ?_)
          show a.lives - 1 < 1
          have : a.lives < 2 := h
          omega
        · exact Or.inr (Or.inr (Or.inl h))
        · exact Or.inr (Or.inr (Or.inr
            ⟨noneUnsent_settle hflushed (hreply hsettles) hread, fun _ => trivial⟩))
      next =>
        refine ⟨hrow, fun _ => ⟨rfl, ?_⟩⟩
        rcases hspares with h | h | h | ⟨hflushed, _⟩
        · exact Or.inl h
        · refine Or.inr (Or.inl ?_)
          show a.lives - 1 < 1
          have : a.lives < 2 := h
          omega
        · exact Or.inr (Or.inr (Or.inl h))
        · exact Or.inr (Or.inr (Or.inr ⟨hflushed, fun _ => trivial⟩))
  | returned v sent status =>
    rw [hphase] at hspares
    have hv : v = u := by
      rw [hphase] at hhas
      exact Option.some.inj hhas
    subst hv
    cases sent with
    | false => simp [hphase, Phase.window] at hwindow
    | true =>
      unfold Sound at hs
      rw [hphase] at hs
      dsimp only
      split
      next hcommits =>
        refine ⟨?_, fun hnone => by cases hnone⟩
        rcases hspares with h | h | h | ⟨hflushed, _⟩
        · exact absurd hcommits (by rw [h]; simp)
        · exact absurd (Nat.lt_one_iff.mp h) hlives
        · exact (h.flush_decided _ _ hs.2.2).mono decided_sent
        · exact hrow.flush_sent _ _ hs.2.2 hflushed
      next => exact ⟨hrow, fun hnone => by cases hnone⟩

theorem spared_exec (limits : AdmissionLimits) {u : Nat} {g : Gateway} {c : Running}
    (hJ : SoundRunning g c) (hI : BookedSent u g) (h : Spared u g c) :
    BookedSent u ((program limits).exec g c).1 ∧
      Spared u ((program limits).exec g c).1 ((program limits).exec g c).2 := by
  cases c with
  | attempt a =>
    by_cases hhas : a.phase.usage? = some u
    · show BookedSent u (g.exec a).1 ∧ SparesRow u (g.exec a).1 (g.exec a).2
      by_cases hdead : a.lives = 0
      · unfold exec
        rw [if_pos hdead]
        exact ⟨hI, fun hnone => by cases hnone⟩
      · have hadv := spares_advance hJ hhas hdead hI.2 h
        have hdrawn := (advance_advances (g := g) (a := { a with lives := a.lives - 1 }) hJ).drawn
        unfold exec
        rw [if_neg hdead]
        exact ⟨⟨hI.1.trans_le hdrawn, hadv.1⟩, hadv.2⟩
    · refine ⟨⟨?_, hI.2.exec hJ hI.1 hhas sentStatus_expires⟩, ?_⟩
      · show u < (g.exec a).1.drawn
        rcases exec_cases g hJ with ⟨_, heq⟩ | ⟨_, hadv⟩
        · rw [heq]
          exact hI.1
        · exact hI.1.trans_le hadv.drawn
      · -- a row that is drawn is not taken any more
        intro hnew
        rcases exec_cases g hJ with ⟨_, heq⟩ | ⟨_, hadv⟩
        · rw [heq] at hnew
          cases hnew
        · rcases hadv.takes u hnew with hold | ⟨_, rfl, _⟩
          · exact absurd hold hhas
          · exact absurd hI.1 (Nat.lt_irrefl _)
  | markExpired current => exact ⟨⟨hI.1, hI.2.expire current sentStatus_expires⟩, trivial⟩
  | lifecycle op => exact ⟨hI, trivial⟩
  | done => exact ⟨hI, trivial⟩

theorem spared_custody (limits : AdmissionLimits) (u : Nat) :
    Custody (program limits) (fun _ _ => True) (fun g => Drawn g ∧ BookedSent u g)
      (fun g c => SoundRunning g c ∧ Spared u g c) Has (fun g u => g.drawn ≤ u) :=
  (attempts_custody limits).and
    (fun _ _ h => h)
    (fun g t c h => by cases c <;> exact h)
    (fun g op c hcall => by
      cases op <;> cases hcall
      · exact fun hu => by cases hu
      · trivial
      · trivial)
    (fun g c _ hJ _ hI h => spared_exec limits hJ hI h)
    (fun g c d hc hd hrow hapart => by
      cases d with
      | attempt b =>
        intro hhas
        obtain ⟨hwindow, hspares⟩ := hrow hhas
        refine ⟨hwindow, ?_⟩
        rcases hspares with h | h | h | h
        · exact Or.inl h
        · exact Or.inr (Or.inl h)
        · exact Or.inr (Or.inr (Or.inl (h.exec hc (Sound.lt hd hhas)
            (fun hc' => hapart u hc' hhas) decidedStatus_expires)))
        · exact Or.inr (Or.inr (Or.inr h))
      | _ => trivial)

/-! ## The call of the provider -/

/-- The next statement of the attempt calls the provider for the row `u`,
with what the world `send` holds. -/
structure Invoking (a : Attempt) (send : SendWorld) (u : Nat) : Prop where
  phase : a.phase = .started u
  fate : a.fate.provider = send.reply
  invokes : send.Invokes

/-- The attempt will settle its row and commit: it lives to, nothing raises
in between, and the row is still in flight. -/
def WritesBack (g : Gateway) (a : Attempt) (u : Nat) : Prop :=
  3 ≤ a.lives ∧ a.fate.settles = true ∧ a.fate.commits = true ∧
    RowIs (fun s => s.inFlight = true) g.usages u

/-- Where the reply is lost, the settlement is one as not sent. -/
theorem settleRead_lost {usages : UsageTable} {u : Nat} {send : SendWorld} (route : ModelRoute)
    (hinvokes : send.Invokes) (hlost : send.LosesReply)
    (hrow : RowIs (fun s => s.inFlight = true) usages u) :
    ∃ p, ModelUsageService.settleRead usages u (settlementOf route send.reply) = .ok (some p) ∧
      p.usageId = u ∧ p.settlement.outcome = .abortedBeforeSend := by
  obtain ⟨r, hfind, _⟩ := hrow
  have hout := (send.booksUnsent_iff hinvokes).mpr hlost route
  have hid := send.requestId_valid route
  generalize hs : settlementOf route send.reply = s at hout hid
  have htokens : s.inputTokens = none ∧ s.outputTokens = none := by
    rw [← hs] at hout ⊢
    cases hreply : send.reply with
    | succeeded requestId inputTokens outputTokens =>
      rw [hreply] at hout
      cases hout
    | _ => exact ⟨rfl, rfl⟩
  have hrequire : require (∀ p ∈ s.providerRequestId, p ≠ "" ∧ p.length ≤ 120)
      (.value "provider_request_id 非法") = .ok () := require_ok.mpr hid
  refine ⟨⟨u, s, some 0, r.status⟩, ?_, rfl, hout⟩
  unfold ModelUsageService.settleRead ModelUsageService.settleCost ModelUsageService.get
  rw [htokens.1, htokens.2, hrequire, hout, hfind]
  rfl

theorem exec_started {g : Gateway} {a : Attempt} {u : Nat} (hlives : a.lives ≠ 0)
    (hphase : a.phase = .started u) :
    g.exec a = (g, { a with
      lives := a.lives - 1, phase := .settling u true a.fate.provider }) := by
  unfold exec advance
  rw [if_neg hlives, hphase]

theorem exec_settling {g : Gateway} {a : Attempt} {u : Nat} {reply : ProviderReply}
    {p : ModelUsageService.PendingSettle} (hlives : a.lives ≠ 0)
    (hphase : a.phase = .settling u true reply) (hsettles : a.fate.settles = true)
    (hread : ModelUsageService.settleRead (flushAll u g.usages a.flushed) u
      (settlementOf a.route reply) = .ok (some p)) :
    g.exec a = (g, { a with
      lives := a.lives - 1
      phase := .returned u true (statusOf a.fate.permitSettles reply)
      flushed := a.flushed ++ [.settle p] }) := by
  unfold exec advance
  rw [if_neg hlives, hphase]
  dsimp only [settle]
  rw [hsettles, hread]

theorem exec_returned {g : Gateway} {a : Attempt} {u : Nat} {sent : Bool}
    {status : Option GatewayStatus} (hlives : a.lives ≠ 0)
    (hphase : a.phase = .returned u sent status) (hcommits : a.fate.commits = true) :
    (g.exec a).1.usages = flushAll u g.usages a.flushed := by
  unfold exec advance
  rw [if_neg hlives, hphase]
  dsimp only
  rw [if_pos hcommits]

theorem step_attempt (limits : AdmissionLimits) {w : World Gateway Running} {i : Nat}
    {a a' : Attempt} {g' : Gateway} (hcall : w.calls[i]? = some (.attempt a))
    (hexec : w.shared.exec a = (g', a')) :
    (program limits).step w ⟨0, .advance i⟩ = ⟨g', w.calls.set i (.attempt a')⟩ := by
  rw [Program.step_advance _ _ hcall]
  show (⟨(w.shared.exec a).1, w.calls.set i (.attempt (w.shared.exec a).2)⟩ : World _ _) = _
  rw [hexec]

/-- The next three statements of the `i`-th call. -/
def threeStatements (i : Nat) : List (Interleave.Event GatewayOp) :=
  [⟨0, .advance i⟩, ⟨0, .advance i⟩, ⟨0, .advance i⟩]

/-- The attempt runs on alone: it settles its row as not sent. -/
theorem lost_reply_settles (limits : AdmissionLimits) {w : World Gateway Running} {i u : Nat}
    {a : Attempt} {send : SendWorld} (hcall : w.calls[i]? = some (.attempt a))
    (h : Invoking a send u) (hflushed : a.flushed = []) (hlost : send.LosesReply)
    (hwrites : WritesBack w.shared a u) :
    ¬ RowIs SentStatus (Runs.run (program limits).step w (threeStatements i)).shared.usages u := by
  obtain ⟨hlives, hsettles, hcommits, hrow⟩ := hwrites
  obtain ⟨p, hread, hp, hout⟩ := settleRead_lost a.route h.invokes hlost hrow
  subst hp
  have hi : i < w.calls.length := (List.getElem?_eq_some_iff.mp hcall).1
  let a₁ : Attempt := { a with
    lives := a.lives - 1, phase := .settling p.usageId true a.fate.provider }
  let a₂ : Attempt := { a₁ with
    lives := a₁.lives - 1
    phase := .returned p.usageId true (statusOf a.fate.permitSettles a.fate.provider)
    flushed := a.flushed ++ [.settle p] }
  have hfirst : w.shared.exec a = (w.shared, a₁) := exec_started (by omega) h.phase
  have hsecond : w.shared.exec a₁ = (w.shared, a₂) := by
    have hlives₁ : a₁.lives ≠ 0 := by
      show a.lives - 1 ≠ 0
      omega
    have hread₁ : ModelUsageService.settleRead (flushAll p.usageId w.shared.usages a₁.flushed)
        p.usageId (settlementOf a₁.route a.fate.provider) = .ok (some p) := by
      show ModelUsageService.settleRead (flushAll _ _ a.flushed) _
        (settlementOf a.route a.fate.provider) = _
      rw [hflushed, h.fate]
      exact hread
    exact exec_settling hlives₁ rfl hsettles hread₁
  have hthird : (w.shared.exec a₂).1.usages
      = (ModelUsageService.settleWrite w.shared.usages p).1 := by
    have hlives₂ : a₂.lives ≠ 0 := by
      show a.lives - 1 - 1 ≠ 0
      omega
    rw [exec_returned hlives₂ rfl hcommits]
    show flushAll p.usageId w.shared.usages (a.flushed ++ [.settle p]) = _
    rw [hflushed]
    rfl
  have hstep₂ : (program limits).step ⟨w.shared, w.calls.set i (.attempt a₁)⟩ ⟨0, .advance i⟩
      = ⟨w.shared, (w.calls.set i (.attempt a₁)).set i (.attempt a₂)⟩ :=
    step_attempt limits (List.getElem?_set_self hi) hsecond
  have hstep₃ : (program limits).step
      ⟨w.shared, (w.calls.set i (.attempt a₁)).set i (.attempt a₂)⟩ ⟨0, .advance i⟩
      = ⟨(w.shared.exec a₂).1,
          ((w.calls.set i (.attempt a₁)).set i (.attempt a₂)).set i
            (.attempt (w.shared.exec a₂).2)⟩ :=
    step_attempt limits (List.getElem?_set_self (by simpa using hi)) rfl
  have hrun : (Runs.run (program limits).step w (threeStatements i)).shared
      = (w.shared.exec a₂).1 := by
    unfold threeStatements
    rw [run_cons, step_attempt limits hcall hfirst, run_cons, hstep₂, run_cons, hstep₃]
    rfl
  rw [hrun, hthird]
  rintro ⟨r', hfind', hsent⟩
  obtain ⟨r, hfind, hflight⟩ := hrow
  unfold ModelUsageService.settleWrite at hfind'
  rcases w.shared.usages.updateWhere_cases p.usageId (ModelUsageService.Matches p)
      (fun r => r.settle p.settlement p.cost) with ⟨r'', hfind'', _, heq⟩ | ⟨hnot, _⟩
  · cases hfind.symm.trans hfind''
    have hid : (r.settle p.settlement p.cost).usageId = p.usageId := Table.key_of_find? (a := r) hfind
    rw [heq, ← hid, Table.find?_put_self (hid.symm ▸ hfind)] at hfind'
    cases hfind'
    exact hsent.2 (by
      show p.settlement.outcome.status = _
      rw [hout]
      rfl)
  · refine hnot r hfind ⟨?_, ?_⟩
    · rw [hout]
      cases hs : r.status <;> simp [hs, UsageStatus.inFlight] at hflight <;>
        simp [ModelUsageService.allowedStatuses, Outcome.isLate]
    · rw [hout]
      rintro ⟨hlate, _⟩
      cases hlate

/-- An attempt at the call of the provider leaves its row booked as sent,
unless its reply is lost and written back. -/
theorem sparesRow_of_invoking {g : Gateway} {a : Attempt} {send : SendWorld} {u : Nat}
    (h : Invoking a send u) (hflushed : a.flushed = [])
    (hrow : RowIs StartedStatus g.usages u) (hnot : ¬ (send.LosesReply ∧ WritesBack g a u)) :
    SparesRow u g a := by
  have hnone : NoneUnsent a.flushed := by
    rw [hflushed]
    intro p hp
    cases hp
  intro _
  refine ⟨by rw [h.phase]; rfl, ?_⟩
  by_cases hlost : send.LosesReply
  · by_cases hcommits : a.fate.commits = true
    · by_cases hsettles : a.fate.settles = true
      · by_cases hlives : 3 ≤ a.lives
        · -- then the row is not in flight any more
          obtain ⟨r, hfind, hstarted⟩ := hrow
          rcases hstarted with hs | hs
          · exact absurd ⟨hlost, hlives, hsettles, hcommits, r, hfind, by rw [hs]; rfl⟩ hnot
          · exact Or.inr (Or.inr (Or.inl ⟨r, hfind, Or.inr (Or.inr (Or.inr hs))⟩))
        · refine Or.inr (Or.inl ?_)
          rw [h.phase]
          exact Nat.lt_of_not_le hlives
      · exact Or.inr (Or.inr (Or.inr ⟨hnone, fun hs => absurd hs hsettles⟩))
    · exact Or.inl (Bool.eq_false_of_not_eq_true hcommits)
  · refine Or.inr (Or.inr (Or.inr ⟨hnone, fun _ => ?_⟩))
    rw [h.phase, h.fate]
    exact fun hunsent => hlost ((send.booksUnsent_iff h.invokes).mp hunsent)

end Gateway

/-- **A sent request is never booked as unsent**, exactly as far as its reply
is not lost. In any state that any run reaches, with attempts at any of their
statements: where the next statement of an attempt calls the provider, its
row stays, whatever happens from then on, neither settled as aborted before
the send nor open to be cancelled — unless the provider call is interrupted
or the check after it raises, and the attempt lives to settle a row that is
still in flight. -/
theorem ModelGateway.sent_request_booked_sent (limits : AdmissionLimits) (sys : Sys)
    (es : List (Interleave.Event Gateway.GatewayOp)) (i u : Nat) (a : Attempt) (send : SendWorld)
    (hcall : (Runs.run (Gateway.program limits).step (Gateway.fresh sys) es).calls[i]?
      = some (.attempt a))
    (h : Gateway.Invoking a send u) :
    (∀ es', Gateway.RowIs Gateway.SentStatus (Runs.run (Gateway.program limits).step
      (Runs.run (Gateway.program limits).step (Gateway.fresh sys) es) es').shared.usages u) ↔
    ¬ (send.LosesReply ∧ Gateway.WritesBack
      (Runs.run (Gateway.program limits).step (Gateway.fresh sys) es).shared a u) := by
  have hfresh : InCustody (fun g => Gateway.Drawn g ∧ True)
      (fun g c => Gateway.SoundRunning g c ∧ Gateway.StartedRow g c) Gateway.Has
      (Gateway.fresh sys) := by
    obtain ⟨⟨hdrawn, _⟩, hapart⟩ := Gateway.inCustody_fresh sys
    exact ⟨⟨⟨hdrawn, trivial⟩, fun c hc => by cases hc⟩, hapart⟩
  have hreached := (Gateway.started_custody limits).run es _ hfresh (meets_true es _)
  generalize Runs.run (Gateway.program limits).step (Gateway.fresh sys) es = w at hcall hreached ⊢
  obtain ⟨⟨⟨hdrawn, _⟩, hcalls⟩, hapart⟩ := hreached
  obtain ⟨hsound, hstarted⟩ := hcalls _ (List.mem_of_getElem? hcall)
  obtain ⟨hflushed, hrow⟩ := hstarted u h.phase
  have hhas : a.phase.usage? = some u := by rw [h.phase]; rfl
  constructor
  · intro hall ⟨hlost, hwrites⟩
    exact Gateway.lost_reply_settles limits hcall h hflushed hlost hwrites
      (hall (Gateway.threeStatements i))
  · intro hnot es'
    have hspared : InCustody (fun g => Gateway.Drawn g ∧ Gateway.BookedSent u g)
        (fun g c => Gateway.SoundRunning g c ∧ Gateway.Spared u g c) Gateway.Has w := by
      refine ⟨⟨⟨hdrawn, hsound.lt hhas, hrow.mono ?_⟩, fun c hc => ⟨(hcalls c hc).1, ?_⟩⟩, hapart⟩
      · rintro s (rfl | rfl) <;> exact ⟨by simp, by simp⟩
      · obtain ⟨j, hj⟩ := List.mem_iff_getElem?.mp hc
        by_cases hij : i = j
        · subst hij
          cases hcall.symm.trans hj
          exact Gateway.sparesRow_of_invoking h hflushed hrow hnot
        · cases c with
          | attempt b => exact fun hb => absurd hb (hapart i j _ _ hij hcall hj u hhas)
          | _ => trivial
    exact ((Gateway.spared_custody limits u).run es' w hspared (meets_true es' w)).asserted.1.2.2

/-- An answer that is delivered. -/
def deliveredSend : SendWorld := { provider := .payload (.obj [("request_id", .str "request-1")]) }

/-- The check after the answer raises: the lease cannot be read. -/
def lostSend : SendWorld := { deliveredSend with delivered := { canWrite := .raises } }

/-- A call up to the request. -/
def upToProvider (send : SendWorld) : List (Interleave.Event Gateway.GatewayOp) :=
  calling (send.fate {}) 5

theorem sent_request_booked_sent_delivered :
    ∃ a, (Runs.run (Gateway.program {}).step (Gateway.fresh callingRun)
        (upToProvider deliveredSend)).calls[0]? = some (.attempt a) ∧
      Gateway.Invoking a deliveredSend 0 ∧
      ∀ es', Gateway.RowIs Gateway.SentStatus (Runs.run (Gateway.program {}).step
        (Runs.run (Gateway.program {}).step (Gateway.fresh callingRun) (upToProvider deliveredSend))
        es').shared.usages 0 :=
  ⟨_, rfl, ⟨rfl, rfl, by decide⟩,
    (ModelGateway.sent_request_booked_sent {} callingRun (upToProvider deliveredSend) 0 0 _
      deliveredSend rfl ⟨rfl, rfl, by decide⟩).mpr (fun h => absurd h.1 (by decide))⟩

/-- The run goes on to settle the row, at no cost. -/
theorem lost_reply_booked_unsent :
    ¬ ∀ (limits : AdmissionLimits) (sys : Sys) (es : List (Interleave.Event Gateway.GatewayOp))
      (i u : Nat) (a : Attempt) (send : SendWorld),
      (Runs.run (Gateway.program limits).step (Gateway.fresh sys) es).calls[i]?
        = some (.attempt a) →
      Gateway.Invoking a send u →
      ∀ es', Gateway.RowIs Gateway.SentStatus (Runs.run (Gateway.program limits).step
        (Runs.run (Gateway.program limits).step (Gateway.fresh sys) es) es').shared.usages u := by
  intro h
  obtain ⟨r, hfind, hsent⟩ := h {} callingRun (upToProvider lostSend) 0 0 _ lostSend rfl
    ⟨rfl, rfl, by decide⟩ (Gateway.threeStatements 0)
  have hsettled : ((Runs.run (Gateway.program {}).step (Runs.run (Gateway.program {}).step
      (Gateway.fresh callingRun) (upToProvider lostSend)) (Gateway.threeStatements 0)).shared.usages.find?
      0).map (fun r => (r.status, r.estimatedCost)) = some (.abortedBeforeSend, some 0) := by
    decide
  rw [hfind] at hsettled
  exact hsent.2 (congrArg Prod.fst (Option.some.inj hsettled))

end AgentRuntime
