import AgentRuntime.LeakedReservation
import AgentRuntime.MemoirGateway
import Mathlib.Tactic.Positivity

/-!
# The reservation and the request

A call is reserved at the token estimate of its context, and the permit is
asked for the same number of tokens. What was reserved for a row stays with
it: a row without an outcome has no tokens counted, and one whose outcome
stays unknown keeps its reserved cost (`AtReserve`). So such a call counts
for nothing exactly where its context estimates nothing
(`counts_of_unknown`).

Between the request and the estimate there is no connection on the way
through `MemoirModelGatewayAdapter.call`: the estimate is that of the step
row. A repair makes the connection itself. So the reservation covers what a
repair sends, and what a call sends only where the step row says enough
(`reservation_covers_iff`).
-/

namespace AgentRuntime

open Keyed Runs Interleave

/-! ## What is reserved for a row stays with it -/

/-- A row before and after an update, by what was reserved for it. -/
structure SameReservation (r r' : AgentModelUsage) : Prop where
  tokens : r'.reservedTokens = r.reservedTokens
  cost : r'.reservedEstimatedCost = r.reservedEstimatedCost

/-- Nothing is counted for a row without an outcome, and one whose outcome
is unknown is at its reserved cost. -/
structure AtReserve (r : AgentModelUsage) : Prop where
  uncounted : r.status.isFinal = false → r.inputTokens = none
  unknown : r.status = .outcomeUnknown → r.estimatedCost = r.reservedEstimatedCost

/-- What an update may do to a row. -/
structure RowKept (r r' : AgentModelUsage) : Prop where
  same : SameReservation r r'
  atReserve : AtReserve r → AtReserve r'

theorem RowKept.refl (r : AgentModelUsage) : RowKept r r := ⟨⟨rfl, rfl⟩, id⟩

theorem RowKept.trans {r₁ r₂ r₃ : AgentModelUsage} (h : RowKept r₁ r₂) (h' : RowKept r₂ r₃) :
    RowKept r₁ r₃ :=
  ⟨⟨h'.same.tokens.trans h.same.tokens, h'.same.cost.trans h.same.cost⟩,
    fun hr => h'.atReserve (h.atReserve hr)⟩

/-- An update that leaves the row in flight, or as it was. -/
theorem rowKept_of_status {r r' : AgentModelUsage} (htokens : r'.inputTokens = r.inputTokens)
    (hsame : SameReservation r r') (hstatus : r.status.isFinal = false)
    (hknown : r'.status ≠ .outcomeUnknown) : RowKept r r' :=
  ⟨hsame, fun hr => ⟨fun _ => htokens.trans (hr.uncounted hstatus), fun h => absurd h hknown⟩⟩

/-- Each row of the one table is one of the other, updated. -/
def RowsKept (t t' : UsageTable) : Prop :=
  ∀ v r', t'.find? v = some r' → ∃ r, t.find? v = some r ∧ RowKept r r'

theorem RowsKept.refl (t : UsageTable) : RowsKept t t := fun _ r h => ⟨r, h, .refl r⟩

theorem RowsKept.trans {t₁ t₂ t₃ : UsageTable} (h : RowsKept t₁ t₂) (h' : RowsKept t₂ t₃) :
    RowsKept t₁ t₃ := by
  intro v r₃ hr₃
  obtain ⟨r₂, hr₂, hkept'⟩ := h' v r₃ hr₃
  obtain ⟨r₁, hr₁, hkept⟩ := h v r₂ hr₂
  exact ⟨r₁, hr₁, hkept.trans hkept'⟩

theorem rowsKept_update {t : UsageTable} {k : Nat} {p : AgentModelUsage → Prop} [DecidablePred p]
    {f : AgentModelUsage → AgentModelUsage} (hf : ∀ r, (f r).usageId = r.usageId)
    (hkept : ∀ r, t.find? k = some r → p r → RowKept r (f r)) :
    RowsKept t (t.updateWhere k p f).1 := by
  intro v r' hr'
  by_cases hv : v = k
  · subst hv
    rcases t.updateWhere_cases v p f with ⟨r, hfind, hp, heq⟩ | ⟨_, heq⟩
    · have hkey : (f r).usageId = v := (hf r).trans (Table.key_of_find? hfind)
      rw [heq] at hr'
      rw [← hkey, Table.find?_put_self (hkey.symm ▸ hfind)] at hr'
      cases hr'
      exact ⟨r, hfind, hkept r hfind hp⟩
    · rw [heq] at hr'
      exact ⟨r', hr', .refl r'⟩
  · rw [t.find?_updateWhere_ne hv p hf] at hr'
    exact ⟨r', hr', .refl r'⟩

theorem rowsKept_delete (t : UsageTable) (k : Nat) (p : AgentModelUsage → Prop) [DecidablePred p] :
    RowsKept t (t.deleteWhere k p).1 := by
  intro v r' hr'
  rcases t.deleteWhere_cases k p with ⟨_, _, _, heq⟩ | ⟨_, heq⟩
  · rw [heq, Table.find?_erase] at hr'
    split at hr'
    · cases hr'
    · exact ⟨r', hr', .refl r'⟩
  · rw [heq] at hr'
    exact ⟨r', hr', .refl r'⟩

theorem rowKept_expire (r : AgentModelUsage) (current : Time) : RowKept r (r.expire current) := by
  unfold AgentModelUsage.expire
  split
  next hexp =>
    have hstatus : r.status.isFinal = false := by
      have hflight := hexp.1
      cases hs : r.status <;> rw [hs] at hflight <;> first | rfl | cases hflight
    exact ⟨⟨rfl, rfl⟩, fun hr => ⟨fun _ => hr.uncounted hstatus, fun _ => rfl⟩⟩
  · exact .refl r

theorem rowsKept_expire (t : UsageTable) (current : Time) :
    RowsKept t (ModelUsageService.markExpiredRunningUnknown t current) := by
  intro v r' hr'
  unfold ModelUsageService.markExpiredRunningUnknown at hr'
  rw [Table.find?_mapRows] at hr'
  obtain ⟨r, hfind, rfl⟩ := Option.map_eq_some_iff.mp hr'
  exact ⟨r, hfind, rowKept_expire r current⟩

/-! ## Settlements -/

/-- A settlement that records an unknown outcome counts nothing, and writes
the reserved cost of its row. -/
def SettlesAtReserve (t : UsageTable) (p : ModelUsageService.PendingSettle) : Prop :=
  p.settlement.outcome = .outcomeUnknown → p.settlement.inputTokens = none ∧
    ∀ r, t.find? p.usageId = some r → p.cost = r.reservedEstimatedCost

theorem SettlesAtReserve.kept {t t' : UsageTable} {p : ModelUsageService.PendingSettle}
    (h : SettlesAtReserve t p) (hkept : RowsKept t t') : SettlesAtReserve t' p := by
  intro hunknown
  obtain ⟨htokens, hcost⟩ := h hunknown
  refine ⟨htokens, fun r' hr' => ?_⟩
  obtain ⟨r, hr, hrow⟩ := hkept _ r' hr'
  rw [hcost r hr, hrow.same.cost]

theorem rowKept_settle {t : UsageTable} {p : ModelUsageService.PendingSettle}
    (h : SettlesAtReserve t p) {r : AgentModelUsage} (hfind : t.find? p.usageId = some r) :
    RowKept r (r.settle p.settlement p.cost) := by
  refine ⟨⟨rfl, rfl⟩, fun _ => ⟨fun hopen => ?_, fun hunknown => ?_⟩⟩
  · cases hout : p.settlement.outcome with
    | outcomeUnknown => exact (h hout).1
    | _ =>
      unfold AgentModelUsage.settle at hopen
      rw [hout] at hopen
      cases hopen
  · cases hout : p.settlement.outcome with
    | outcomeUnknown => exact (h hout).2 r hfind
    | _ =>
      unfold AgentModelUsage.settle at hunknown
      rw [hout] at hunknown
      cases hunknown

namespace Gateway

theorem rowsKept_applyFlush {u : Nat} {t : UsageTable} {f : Flush}
    (h : ∀ p, f = .settle p → SettlesAtReserve t p) : RowsKept t (applyFlush u t f) := by
  cases f with
  | prompt promptId promptVersion =>
    refine rowsKept_update (fun _ => rfl) fun r _ hs => ?_
    exact rowKept_of_status rfl ⟨rfl, rfl⟩ (by rw [hs]; rfl)
      (by simp [AgentModelUsage.attachPrompt, hs])
  | activate permitId =>
    refine rowsKept_update (fun _ => rfl) fun r _ hs => ?_
    exact rowKept_of_status rfl ⟨rfl, rfl⟩ (by rw [hs]; rfl) (by simp [AgentModelUsage.activate])
  | settle p => exact rowsKept_update (fun _ => rfl) fun r hfind _ => rowKept_settle (h p rfl) hfind

theorem rowsKept_flushAll {u : Nat} :
    ∀ (flushed : List Flush) (t : UsageTable),
      (∀ p, .settle p ∈ flushed → SettlesAtReserve t p) → RowsKept t (flushAll u t flushed)
  | [], t, _ => .refl t
  | f :: rest, t, h => by
    have hfirst : RowsKept t (applyFlush u t f) :=
      rowsKept_applyFlush fun p hp => h p (hp ▸ List.mem_cons_self)
    refine hfirst.trans (rowsKept_flushAll rest _ fun p hp => ?_)
    exact (h p (List.mem_cons_of_mem _ hp)).kept hfirst

/-- What the gateway settles as unknown, it settles at the reserve. -/
theorem settlesAtReserve_of_read {t view : UsageTable} {u : Nat} {route : ModelRoute}
    {reply : ProviderReply} {p : ModelUsageService.PendingSettle} (hkept : RowsKept t view)
    (h : ModelUsageService.settleRead view u (settlementOf route reply) = .ok (some p)) :
    SettlesAtReserve t p := by
  have hid := ModelUsageService.settleRead_ok h
  obtain ⟨_, _, h⟩ := bind_ok.mp h
  obtain ⟨_, _, h⟩ := bind_ok.mp h
  obtain ⟨_, _, h⟩ := bind_ok.mp h
  obtain ⟨cost, hcost, h⟩ := bind_ok.mp h
  obtain ⟨r', hget, h⟩ := bind_ok.mp h
  have hp : p.settlement = settlementOf route reply ∧ p.cost = cost := by
    split at h
    · cases h
    · cases h
      exact ⟨rfl, rfl⟩
  obtain ⟨hsettlement, hpcost⟩ := hp
  intro hunknown
  rw [hsettlement] at hunknown ⊢
  have hread : (settlementOf route reply).inputTokens = none ∧ ∃ r, view.find? u = some r ∧
      cost = r.reservedEstimatedCost := by
    have hreserved : ∀ {s : Settlement}, s.outcome = .outcomeUnknown →
        ModelUsageService.settleCost view u s = .ok cost →
        ∃ r, view.find? u = some r ∧ cost = r.reservedEstimatedCost := by
      intro s hs hcost
      unfold ModelUsageService.settleCost at hcost
      rw [hs] at hcost
      obtain ⟨r, hr, hpure⟩ := bind_ok.mp hcost
      cases hpure
      unfold ModelUsageService.get at hr
      split at hr
      · cases hr
      next found =>
        cases hr
        exact ⟨r, found, rfl⟩
    cases reply with
    | unknown => exact ⟨rfl, hreserved rfl hcost⟩
    | discarded requestId => exact ⟨rfl, hreserved rfl hcost⟩
    | notSent => cases hunknown
    | interrupted requestId => cases hunknown
    | rateLimited => cases hunknown
    | succeeded => cases hunknown
  obtain ⟨htokens, rv, hrv, hcost'⟩ := hread
  refine ⟨htokens, fun r hr => ?_⟩
  obtain ⟨r₀, hr₀, hrow⟩ := hkept u rv hrv
  rw [hid] at hr
  cases hr.symm.trans hr₀
  rw [hpcost, hcost', hrow.same.cost]

/-! ## Statements -/

/-- What a statement does to the ledger: it updates rows, and may add the
one it draws. -/
structure Keeps (g g' : Gateway) : Prop where
  drawn : g.drawn ≤ g'.drawn
  row : ∀ v r', g'.usages.find? v = some r' →
    (∃ r, g.usages.find? v = some r ∧ RowKept r r') ∨ (v = g.drawn ∧ v < g'.drawn ∧ AtReserve r')

theorem keeps_of_rows {g : Gateway} {usages : UsageTable} (h : RowsKept g.usages usages) :
    Keeps g { g with usages := usages } :=
  ⟨Nat.le_refl _, fun v r' hr' => Or.inl (h v r' hr')⟩

/-- What an attempt knows: its row is reserved for its call, and what it has
flushed settles at the reserve. -/
structure Reserves (g : Gateway) (a : Attempt) : Prop where
  drawn : ∀ u, a.phase.usage? = some u → u < g.drawn
  row : ∀ u r, a.phase.usage? = some u → g.usages.find? u = some r →
    r.reservedTokens = some (a.ctx.estimatedInputTokens : Int) ∧
      r.reservedEstimatedCost = some (PolicyEngine.reservedCost a.route a.ctx)
  flushed : ∀ p, .settle p ∈ a.flushed → p.usageId < g.drawn ∧ SettlesAtReserve g.usages p

/-- Rows that are drawn are updated only. -/
theorem Keeps.old {g g' : Gateway} (h : Keeps g g') {v : Nat} (hv : v < g.drawn)
    {r' : AgentModelUsage} (hr' : g'.usages.find? v = some r') :
    ∃ r, g.usages.find? v = some r ∧ RowKept r r' := by
  rcases h.row v r' hr' with hold | ⟨hnew, -⟩
  · exact hold
  · omega

theorem Reserves.kept {g g' : Gateway} {a : Attempt} (h : Reserves g a) (hkeeps : Keeps g g') :
    Reserves g' a where
  drawn u hu := Nat.lt_of_lt_of_le (h.drawn u hu) hkeeps.drawn
  row u r' hu hr' := by
    obtain ⟨r, hr, hrow⟩ := hkeeps.old (h.drawn u hu) hr'
    rw [hrow.same.tokens, hrow.same.cost]
    exact h.row u r hu hr
  flushed p hp := by
    obtain ⟨hdrawn, hsettles⟩ := h.flushed p hp
    refine ⟨Nat.lt_of_lt_of_le hdrawn hkeeps.drawn, fun hunknown => ?_⟩
    obtain ⟨htokens, hcost⟩ := hsettles hunknown
    refine ⟨htokens, fun r' hr' => ?_⟩
    obtain ⟨r, hr, hrow⟩ := hkeeps.old hdrawn hr'
    rw [hcost r hr, hrow.same.cost]

/-- The attempt goes on with its row or without one, and has flushed nothing
that settles. -/
theorem Reserves.moved {g : Gateway} {a a' : Attempt} (h : Reserves g a)
    (hctx : a'.ctx = a.ctx) (hroute : a'.route = a.route)
    (hphase : ∀ u, a'.phase.usage? = some u → a.phase.usage? = some u)
    (hflushed : ∀ p, .settle p ∈ a'.flushed → .settle p ∈ a.flushed) : Reserves g a' where
  drawn u hu := h.drawn u (hphase u hu)
  row u r hu hr := by
    rw [hctx, hroute]
    exact h.row u r (hphase u hu) hr
  flushed p hp := h.flushed p (hflushed p hp)

theorem Reserves.closed {g : Gateway} {a : Attempt} (h : Reserves g a)
    (status : Option GatewayStatus) : Reserves g { a with phase := .closed status } :=
  h.moved rfl rfl (fun _ hu => by cases hu) (fun _ hp => hp)

theorem Reserves.flushKept {g : Gateway} {a : Attempt} (h : Reserves g a) (u : Nat) :
    RowsKept g.usages (flushAll u g.usages a.flushed) :=
  rowsKept_flushAll _ _ fun p hp => (h.flushed p hp).2

theorem keeps_cancel {g : Gateway} {a : Attempt} (h : Reserves g a) (u : Nat) :
    Keeps g (g.cancel u a.flushed) :=
  keeps_of_rows ((h.flushKept u).trans (rowsKept_delete _ _ _))

/-- What a statement of an attempt keeps, and what the attempt knows then. -/
def Kept (g : Gateway) (result : Gateway × Attempt) : Prop :=
  Keeps g result.1 ∧ Reserves result.1 result.2

theorem kept_still {g : Gateway} {a' : Attempt} (h : Reserves g a') : Kept g (g, a') :=
  ⟨keeps_of_rows (.refl _), h⟩

theorem kept_cancelled {g : Gateway} {a : Attempt} (h : Reserves g a) (u : Nat)
    (status : Option GatewayStatus) :
    Kept g (g.cancel u a.flushed, { a with phase := .closed status }) :=
  ⟨keeps_cancel h u, (h.kept (keeps_cancel h u)).closed status⟩

theorem attach_kept {g : Gateway} {a : Attempt} {u : Nat} (hphase : a.phase = .reserved u)
    (h : Reserves g a) : Kept g (g.attach a u) := by
  have hon : ∀ v, (Phase.attached u).usage? = some v → a.phase.usage? = some v := by
    rw [hphase]
    exact fun _ hv => hv
  unfold attach
  split
  · exact kept_still (h.moved rfl rfl hon fun _ hp => hp)
  · split
    · exact kept_still (h.closed none)
    · split
      · exact kept_still (h.closed none)
      · split
        · refine kept_still (h.moved rfl rfl hon fun p hp => ?_)
          simpa using hp
        · exact kept_cancelled h u _

theorem acquire_kept {g : Gateway} {a : Attempt} {u : Nat} (hphase : a.phase = .attached u)
    (h : Reserves g a) : Kept g (g.acquire a u) := by
  unfold acquire
  split
  · refine kept_still (h.moved rfl rfl ?_ fun _ hp => hp)
    rw [hphase]
    exact fun _ hv => hv
  · exact kept_cancelled h u _
  · exact kept_still (h.closed none)

theorem activate_kept {g : Gateway} {a : Attempt} {u : Nat} (hphase : a.phase = .granted u)
    (h : Reserves g a) : Kept g (g.activate a u) := by
  unfold activate
  split
  · exact kept_still (h.closed none)
  · split
    · refine kept_still (h.moved rfl rfl ?_ fun p hp => ?_)
      · rw [hphase]
        exact fun _ hv => hv
      · simpa using hp
    · exact kept_still (h.closed _)

theorem start_kept {g : Gateway} {a : Attempt} {u : Nat} (hphase : a.phase = .activated u)
    (h : Reserves g a) : Kept g (g.start a u) := by
  have hrows : RowsKept g.usages (ModelUsageService.markStarted (flushAll u g.usages a.flushed) u).1 := by
    refine (h.flushKept u).trans (rowsKept_update (fun _ => rfl) fun r _ hs => ?_)
    exact rowKept_of_status rfl ⟨rfl, rfl⟩ (by rw [hs]; rfl) (by simp [AgentModelUsage.start])
  have hkept := h.kept (keeps_of_rows hrows)
  have hon : ∀ {phase : Phase}, phase.usage? = some u →
      ∀ v, phase.usage? = some v → a.phase.usage? = some v := by
    intro phase hu v hv
    rw [hphase]
    exact hu.symm.trans hv
  unfold start
  split
  · rcases hm : ModelUsageService.markStarted (flushAll u g.usages a.flushed) u with ⟨usages, ok⟩
    rw [hm] at hrows hkept
    have hnone : ∀ p, Flush.settle p ∈ ([] : List Flush) → .settle p ∈ a.flushed :=
      fun _ hp => by cases hp
    cases ok
    · exact ⟨keeps_of_rows hrows, hkept.moved rfl rfl (hon rfl) hnone⟩
    · exact ⟨keeps_of_rows hrows, hkept.moved rfl rfl (hon rfl) hnone⟩
  · exact kept_still (h.moved rfl rfl (hon rfl) fun _ hp => hp)
  · exact kept_still (h.moved rfl rfl (hon rfl) fun _ hp => hp)

theorem settle_kept {g : Gateway} {a : Attempt} {u : Nat} {sent : Bool} {reply : ProviderReply}
    (hphase : a.phase = .settling u sent reply) (h : Reserves g a) :
    Kept g (g.settle a u sent reply) := by
  have hon : ∀ status v, (Phase.returned u sent status).usage? = some v →
      a.phase.usage? = some v := by
    rw [hphase]
    exact fun _ _ hv => hv
  unfold settle
  dsimp only
  split
  next p _ hread =>
    refine kept_still ⟨fun v hv => h.drawn v (hon _ v hv), fun v r hv hr => h.row v r (hon _ v hv) hr,
      fun p' hp' => ?_⟩
    rcases List.mem_append.mp hp' with hold | hnew
    · exact h.flushed p' hold
    · cases List.mem_singleton.mp hnew
      rw [ModelUsageService.settleRead_ok hread]
      exact ⟨h.drawn u (hon none u rfl), settlesAtReserve_of_read (h.flushKept u) hread⟩
  · exact kept_still (h.moved rfl rfl (hon _) fun _ hp => hp)

theorem reserve_kept {g g' : Gateway} {a : Attempt} (h : Reserves g a)
    (hreserve : g.reserve a.ctx a.route = some g') :
    Kept g (g', { a with phase := .reserved g.drawn }) := by
  obtain ⟨usages, db, hins, rfl⟩ := reserve_ok hreserve
  have hrow := Table.find?_insert? hins
  have hkeeps : Keeps g { sys := { g.sys with db := db }, usages := usages, drawn := g.drawn + 1 } :=
    ⟨Nat.le_succ _, fun v r' hr' => by
      rw [hrow v] at hr'
      split at hr'
      next hv =>
        cases hr'
        exact Or.inr ⟨hv, by rw [hv]; exact Nat.lt_succ_self _, fun _ => rfl, fun h => by cases h⟩
      · exact Or.inl ⟨r', hr', .refl r'⟩⟩
  refine ⟨hkeeps, fun u hu => ?_, fun u r hu hr => ?_, (h.kept hkeeps).flushed⟩
  · cases hu
    exact Nat.lt_succ_self _
  · cases hu
    have hnew := (hrow g.drawn).trans (if_pos rfl)
    cases hnew.symm.trans hr
    exact ⟨rfl, rfl⟩

/-- **One statement of an attempt.** -/
theorem advance_kept {g : Gateway} {a : Attempt} (h : Reserves g a) : Kept g (g.advance a) := by
  unfold advance
  split
  · split
    · exact kept_still (h.closed _)
    · split
      · exact kept_still (h.closed _)
      next hreserve => exact reserve_kept h hreserve
  next hphase => exact attach_kept hphase h
  next hphase => exact acquire_kept hphase h
  next hphase => exact activate_kept hphase h
  next hphase => exact start_kept hphase h
  next u hphase =>
    refine kept_still (h.moved rfl rfl ?_ fun _ hp => hp)
    rw [hphase]
    exact fun _ hv => hv
  next hphase => exact settle_kept hphase h
  · split
    next u _ _ _ _ =>
      have hkeeps := keeps_of_rows (h.flushKept u)
      exact ⟨hkeeps, (h.kept hkeeps).closed _⟩
    · exact kept_still (h.closed _)
  · exact kept_still h

theorem exec_kept {g : Gateway} {a : Attempt} (h : Reserves g a) : Kept g (g.exec a) := by
  unfold exec
  split
  · exact kept_still (h.closed none)
  · exact advance_kept (h.moved rfl rfl (fun _ hu => hu) (fun _ hp => hp))

/-! ## Runs -/

/-- The rows of the ledger are at their reserve. -/
def AllAtReserve (g : Gateway) : Prop :=
  ∀ v r, g.usages.find? v = some r → AtReserve r

theorem AllAtReserve.kept {g g' : Gateway} (h : AllAtReserve g) (hkeeps : Keeps g g') :
    AllAtReserve g' := by
  intro v r' hr'
  rcases hkeeps.row v r' hr' with ⟨r, hr, hrow⟩ | ⟨-, -, hnew⟩
  · exact hrow.atReserve (h v r hr)
  · exact hnew

def ReservesRunning (g : Gateway) : Running → Prop
  | .attempt a => Reserves g a
  | _ => True

theorem ReservesRunning.kept {g g' : Gateway} {c : Running} (h : ReservesRunning g c)
    (hkeeps : Keeps g g') : ReservesRunning g' c := by
  cases c with
  | attempt a => exact Reserves.kept h hkeeps
  | _ => trivial

theorem execRunning_kept (limits : AdmissionLimits) {g : Gateway} {c : Running}
    (h : ReservesRunning g c) :
    Keeps g (execRunning limits g c).1 ∧
      ReservesRunning (execRunning limits g c).1 (execRunning limits g c).2 := by
  cases c with
  | attempt a => exact exec_kept h
  | markExpired current => exact ⟨keeps_of_rows (rowsKept_expire _ _), trivial⟩
  | lifecycle op => exact ⟨⟨Nat.le_refl _, fun _ r' hr' => Or.inl ⟨r', hr', .refl r'⟩⟩, trivial⟩
  | done => exact ⟨keeps_of_rows (.refl _), trivial⟩

theorem keeps_wait (limits : AdmissionLimits) (g : Gateway) (t : Nat) :
    Keeps g ((program limits).wait g t) :=
  ⟨Nat.le_refl _, fun _ r' hr' => Or.inl ⟨r', hr', .refl r'⟩⟩

/-- What every statement keeps holds along a run, beside the reserve. -/
theorem outline (limits : AdmissionLimits) {Q : Gateway → Prop}
    (hQ : ∀ g g', Keeps g g' → Q g → Q g') :
    Outline (program limits) (fun _ _ => True) (fun g => AllAtReserve g ∧ Q g) ReservesRunning where
  wait g t h := ⟨h.1.kept (keeps_wait limits g t), hQ _ _ (keeps_wait limits g t) h.2⟩
  waits g t _ h := h.kept (keeps_wait limits g t)
  call g a c _ hcall := by
    cases a with
    | callRoute call =>
      cases hcall
      show Reserves g (enter call)
      exact ⟨fun _ hu => (by cases hu), fun _ _ hu => (by cases hu), fun _ hp => (by cases hp)⟩
    | _ =>
      cases hcall
      trivial
  exec g c h hc _ := by
    obtain ⟨hkeeps, hafter⟩ := execRunning_kept limits hc
    exact ⟨⟨h.1.kept hkeeps, hQ _ _ hkeeps h.2⟩, hafter⟩
  spares g c d _ hc _ hd := hd.kept (execRunning_kept limits hc).1

/-- The row `u`, if it is still there, is reserved for the call. -/
def Booked (u : Nat) (route : ModelRoute) (ctx : ModelCallContext) (g : Gateway) : Prop :=
  u < g.drawn ∧ ∀ r, g.usages.find? u = some r →
    r.reservedTokens = some (ctx.estimatedInputTokens : Int) ∧
      r.reservedEstimatedCost = some (PolicyEngine.reservedCost route ctx)

theorem Booked.kept {u : Nat} {route : ModelRoute} {ctx : ModelCallContext} {g g' : Gateway}
    (hkeeps : Keeps g g') (h : Booked u route ctx g) : Booked u route ctx g' := by
  refine ⟨Nat.lt_of_lt_of_le h.1 hkeeps.drawn, fun r' hr' => ?_⟩
  obtain ⟨r, hr, hrow⟩ := hkeeps.old h.1 hr'
  rw [hrow.same.tokens, hrow.same.cost]
  exact h.2 r hr

/-- No call with the context is ever counted as free while its outcome is
unknown. -/
def NeverFree (ctx : ModelCallContext) : Prop :=
  ∀ (limits : AdmissionLimits) (sys : Sys) (es fs : List (Interleave.Event GatewayOp))
    (a : Attempt) (u : Nat) (r : AgentModelUsage),
    .attempt a ∈ (run (program limits).step ⟨{ sys := sys }, []⟩ es).calls → a.ctx = ctx →
    a.phase.usage? = some u →
    (run (program limits).step ⟨{ sys := sys }, []⟩ (es ++ fs)).shared.usages.find? u = some r →
    r.status = .outcomeUnknown →
    PolicyEngine.usageTokens r ≠ 0 ∧ (0 < a.route.inputPrice → PolicyEngine.usageCost r ≠ 0)

theorem nonnegativeInt_ofNat (n : Nat) : nonnegativeInt (some (n : Int)) = some (n : Int) := by
  unfold nonnegativeInt
  simp

/-- What an unknown call counts for is what was reserved for it. -/
theorem counts_of_unknown {r : AgentModelUsage} {route : ModelRoute} {ctx : ModelCallContext}
    (h : AtReserve r) (hunknown : r.status = .outcomeUnknown)
    (htokens : r.reservedTokens = some (ctx.estimatedInputTokens : Int))
    (hcost : r.reservedEstimatedCost = some (PolicyEngine.reservedCost route ctx)) :
    PolicyEngine.usageTokens r = ctx.estimatedInputTokens ∧
      PolicyEngine.usageCost r = PolicyEngine.reservedCost route ctx := by
  have hopen : r.status.isFinal = false := by
    rw [hunknown]
    rfl
  have hnonneg : 0 ≤ PolicyEngine.reservedCost route ctx := by
    unfold PolicyEngine.reservedCost
    have hprice := route.inputPrice_nonneg
    positivity
  constructor
  · unfold PolicyEngine.usageTokens
    rw [if_neg (by rw [hunknown]; decide), h.uncounted hopen, htokens, nonnegativeInt_ofNat]
    rfl
  · unfold PolicyEngine.usageCost nonnegativeFinite
    rw [h.unknown hunknown, hcost, Option.filter_some_pos (by simpa using hnonneg)]

/-- A context that estimates something is never free. -/
theorem neverFree_of_pos {ctx : ModelCallContext} (h : 0 < ctx.estimatedInputTokens) :
    NeverFree ctx := by
  intro limits sys es fs a u r hmem hctx hu hr hunknown
  have hstart : ∀ {Q : Gateway → Prop}, Q { sys := sys } →
      Asserted (fun g => AllAtReserve g ∧ Q g) ReservesRunning ⟨{ sys := sys }, []⟩ :=
    fun hQ => ⟨⟨fun _ _ hr => (by cases hr), hQ⟩, fun _ hc => (by cases hc)⟩
  obtain ⟨⟨hall, -⟩, hcalls⟩ := (outline limits (Q := fun _ => True) (fun _ _ _ _ => trivial)).run es
    ⟨{ sys := sys }, []⟩ (hstart trivial) (meets_true es _)
  have hknows : Reserves _ a := hcalls _ hmem
  have hbooked : Booked u a.route a.ctx _ :=
    ⟨hknows.drawn u hu, fun r' hr' => hknows.row u r' hu hr'⟩
  rw [run_append] at hr
  obtain ⟨⟨hall', hbooked'⟩, -⟩ := (outline limits (Q := Booked u a.route a.ctx)
    (fun _ _ hkeeps => Booked.kept hkeeps)).run fs _ ⟨⟨hall, hbooked⟩, hcalls⟩ (meets_true fs _)
  obtain ⟨htokens, hcost⟩ := hbooked'.2 r hr
  obtain ⟨hcounted, hpriced⟩ := counts_of_unknown (hall' u r hr) hunknown htokens hcost
  rw [hctx] at hcounted hpriced
  refine ⟨by rw [hcounted]; omega, fun hprice => ?_⟩
  rw [hpriced]
  unfold PolicyEngine.reservedCost
  positivity

end Gateway

/-! ## The requests of the adapter -/

/-- A request made of the adapter: a repair where there is an output to
repair. -/
structure MemoirCall where
  adapter : MemoirModelGatewayAdapter
  db : Db
  now : Time
  runId : String
  nodeId : String
  request : List (String × Json)
  invalidOutput : Option Json := none

namespace MemoirCall

/-- What the adapter hands to `ModelGateway.call`. -/
def handed (c : MemoirCall) : Except Refusal ModelRequest :=
  match c.invalidOutput with
  | none => c.adapter.call c.db c.now c.runId c.nodeId c.request
  | some output => c.adapter.repair c.db c.now c.runId c.nodeId c.request output

/-- The approximation of what is sent. -/
def approximation (c : MemoirCall) (m : ModelRequest) : Nat :=
  m.request.approximateTokens c.adapter.packages.floatText

/-- What is booked for the call, and what is asked from the permit, covers
what is sent; and the call is never counted as free. -/
structure Covers (c : MemoirCall) (m : ModelRequest) : Prop where
  booked : ∀ usages route usageId, ∃ tokens : Int,
    (PolicyEngine.newUsage usages m.ctx route usageId).reservedTokens = some tokens ∧
      (c.approximation m : Int) ≤ tokens
  asked : ∀ permitId, ∃ tokens, m.ctx.permitRequest permitId = .acquire permitId tokens ∧
    c.approximation m ≤ tokens
  neverFree : Gateway.NeverFree m.ctx

/-- What the row of the step says that the call runs under. -/
def stepEstimate (db : Db) (ctx : ModelCallContext) : Nat :=
  ((db.steps.find? (fun s => decide (s.stepId = ctx.stepId ∧ s.runId = ctx.runId))).map
    AgentStep.estimatedInputTokens).getD 0

/-- The call is a repair, or the row of its step says enough. -/
def SaysEnough (c : MemoirCall) (m : ModelRequest) : Prop :=
  c.invalidOutput ≠ none ∨ c.approximation m ≤ stepEstimate c.db m.ctx

theorem covers_iff (c : MemoirCall) (m : ModelRequest) :
    c.Covers m ↔ c.approximation m ≤ m.ctx.estimatedInputTokens := by
  constructor
  · intro h
    obtain ⟨tokens, heq, hle⟩ := h.asked ""
    cases heq
    exact hle
  · intro h
    refine ⟨fun _ _ _ => ⟨_, rfl, by exact_mod_cast h⟩, fun _ => ⟨_, rfl, h⟩, ?_⟩
    have hpos := m.request.approximateTokens_pos c.adapter.packages.floatText
    exact Gateway.neverFree_of_pos (Nat.lt_of_lt_of_le hpos h)

theorem estimate_of_fromAuthoritative {db : Db} {now : Time} {runId stepId : String}
    {lease : LeaseContext} {ctx : ModelCallContext}
    (h : ModelCallContext.fromAuthoritative db now runId stepId lease = some ctx) :
    ctx.estimatedInputTokens = stepEstimate db ctx := by
  unfold ModelCallContext.fromAuthoritative at h
  obtain ⟨run, -, h⟩ := Option.bind_eq_some_iff.mp h
  obtain ⟨step, hstep, h⟩ := Option.bind_eq_some_iff.mp h
  split at h
  · cases h
    unfold stepEstimate
    rw [hstep]
    rfl
  · cases h

theorem saysEnough_iff {c : MemoirCall} {m : ModelRequest} (h : c.handed = .ok m) :
    c.approximation m ≤ m.ctx.estimatedInputTokens ↔ c.SaysEnough m := by
  unfold handed at h
  unfold SaysEnough
  cases houtput : c.invalidOutput with
  | none =>
    rw [houtput] at h
    obtain ⟨_, _, hctx⟩ := MemoirModelGatewayAdapter.call_ok h
    rw [estimate_of_fromAuthoritative hctx]
    simp
  | some output =>
    rw [houtput] at h
    exact ⟨fun _ => Or.inl (by simp), fun _ => MemoirModelGatewayAdapter.repair_ok h⟩

/-- The row of a step as the executor writes it says nothing. -/
theorem stepEstimate_of_none {db : Db} (h : ∀ step ∈ db.steps, step.inputSummary = none)
    (ctx : ModelCallContext) : stepEstimate db ctx = 0 := by
  unfold stepEstimate
  cases hfind : db.steps.find? (fun s => decide (s.stepId = ctx.stepId ∧ s.runId = ctx.runId)) with
  | none => rfl
  | some step =>
    show (step.estimatedInputTokens) = 0
    unfold AgentStep.estimatedInputTokens
    rw [h step (List.mem_of_find?_eq_some hfind)]
    rfl

/-- The reservation covers what the adapter hands to the gateway exactly
where it is a repair, or the row of the step says enough; under the rows the
executor writes, exactly where it is a repair. -/
theorem reservation_covers_iff (c : MemoirCall) :
    ((∀ m, c.handed = .ok m → c.Covers m) ↔ ∀ m, c.handed = .ok m → c.SaysEnough m) ∧
    ((∀ step ∈ c.db.steps, step.inputSummary = none) →
      ((∀ m, c.handed = .ok m → c.Covers m) ↔ ∀ m, c.handed = .ok m → c.invalidOutput ≠ none)) := by
  have hiff : ∀ m, c.handed = .ok m → (c.Covers m ↔ c.SaysEnough m) := fun m h =>
    (c.covers_iff m).trans (saysEnough_iff h)
  refine ⟨forall₂_congr hiff, fun hsteps => forall₂_congr fun m h => (hiff m h).trans ?_⟩
  unfold SaysEnough
  rw [stepEstimate_of_none hsteps]
  have hpos := m.request.approximateTokens_pos c.adapter.packages.floatText
  exact ⟨fun hsays => hsays.resolve_right (by unfold approximation; omega), Or.inl⟩

/-! ## A first call -/

def samplePackages : Packages where
  load agentId version ref :=
    if agentId = "memoir" ∧ version = "1.0.0" then
      some {
        promptId := ref.1
        version := ref.2
        outputSchema := "highlights.v1"
        modelPolicy := "standard"
        guardrailPolicy := "standard"
        template := "Extract the highlights as JSON." }
    else none
  capabilityAvailable _ _ _ := some true
  contextTokenBudget _ _ := some 4096
  floatText _ _ := "0.5"
  redact text := text

/-- A worker has claimed the run and is at its first model node. -/
def highlightsRun : Db :=
  (reach {} (claimedRun ++ [after 1 (.write 0 (.addStep
    (WorkflowExecutor.startStep "step-1" "run-1"
      { nodeId := "extract_highlights", nodeType := "model" } sampleContext.leaseContext)))])).db

def firstCall : MemoirCall where
  adapter := {
    packages := samplePackages
    routeIds := [("extract_highlights", "primary")]
    leaseContext := some sampleContext.leaseContext }
  db := highlightsRun
  now := seconds 2
  runId := "run-1"
  nodeId := "extract_highlights"
  request := [
    ("input", .obj [("source_refs", .arr [.str "diary-1"])]),
    ("materials", .arr [.obj [("source_ref", .str "diary-1"), ("text", .str "a day by the sea")]])]

/-- The first call of a node is sent with nothing reserved for it. -/
theorem first_call_not_covered : ∃ m, firstCall.handed = .ok m ∧ ¬ firstCall.Covers m := by
  have hsent : (firstCall.handed.toOption.map (·.ctx.estimatedInputTokens)) = some 0 := by
    decide +kernel
  cases hm : firstCall.handed with
  | error refusal =>
    rw [hm] at hsent
    cases hsent
  | ok m =>
    rw [hm] at hsent
    have hzero : m.ctx.estimatedInputTokens = 0 := Option.some.inj hsent
    refine ⟨m, rfl, fun hcovers => ?_⟩
    have hle := (firstCall.covers_iff m).mp hcovers
    have hpos := m.request.approximateTokens_pos firstCall.adapter.packages.floatText
    unfold approximation at hle
    omega

end MemoirCall

end AgentRuntime
