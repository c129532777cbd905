import AgentRuntime.CallbackStream

/-!
# The admission ledger

Every operation moves admission slots by deltas; the ledger is right when
the deltas add up. `LedgerInv` says that they do: in every scope the count
of a dispatch state is the number of that scope's runs in it, and no release
has ever clipped at zero. It holds after every sequence of operations
(`admission_conserved`), because every move shifts exactly the slot its row
moves out of and into (`Move.shift_exact`) — with one subtlety: `retry`
releases a finished slot without looking, and is right only because a failed
or partial run is finished (`AgentRun.Lifecycle`).

The limits are another matter. The API checks the limits it is configured
with, but workers and the reconciler check the built-in defaults, so a claim
or a requeue can pass a configured limit (`configured_limit_exceeded`).
`AdmitsWithin` says of a step that the slots these take are free by the
configured limits too; along runs whose steps meet it, everything holds
(`admission_ledger`).
-/

namespace AgentRuntime

open Keyed Fencing Runs ReconciliationService

/-! ## Exact shifts -/

variable {limits : AdmissionLimits} {now : Time} {causes : Cause → AgentRun → Prop}

/-- The slot a move shifts is the one its row moves out of and into. -/
theorem Move.shift_exact {r r' : AgentRun} {shift : Shift} {event : Option String}
    (h : Move limits now causes r r' shift event) (hl : r.Lifecycle) :
    match shift with
    | none => r'.dispatchState = r.dispatchState
    | some (_, old, new) => r.dispatchState = old ∧ r'.dispatchState = new := by
  cases h with
  | start hd => exact ⟨hd, rfl⟩
  | cancelNow => exact ⟨rfl, rfl⟩
  | retry hs =>
    refine ⟨hl.finished_of_terminal ?_, rfl⟩
    rcases hs with hs | hs <;> rw [hs] <;> rfl
  | approve _ hd => exact ⟨hd, rfl⟩
  | reject _ hd => exact hd.symm
  | claim hc => exact ⟨hc.1, rfl⟩
  | finish hd => exact ⟨hd, rfl⟩
  | pause hd => exact ⟨hd, rfl⟩
  | reap hd => exact ⟨hd, rfl⟩
  | terminate => exact ⟨rfl, rfl⟩
  | fallback _ hd => exact ⟨hd, rfl⟩
  | _ => exact rfl

/-! ## Counting runs -/

/-- The run counts for a dispatch state in a scope. -/
def AgentRun.countsFor (run : AgentRun) (s : Scope) (k : DispatchState) : Bool :=
  decide (run.dispatchState = k ∧ s ∈ run.scopes)

theorem expectedCount_put {runs : RunTable} {r q : AgentRun}
    (h : runs.find? q.runId = some r) (s : Scope) (k : DispatchState) :
    expectedCount (runs.put q).rows s k + (if r.countsFor s k then 1 else 0)
      = expectedCount runs.rows s k + (if q.countsFor s k then 1 else 0) :=
  Table.countP_put (fun run : AgentRun => run.countsFor s k) h

theorem expectedCount_insert {runs runs' : RunTable} {r : AgentRun}
    (h : runs.insert? r = some runs') (s : Scope) (k : DispatchState) :
    expectedCount runs'.rows s k
      = expectedCount runs.rows s k + (if r.countsFor s k then 1 else 0) :=
  Table.countP_insert? (fun run : AgentRun => run.countsFor s k) h

theorem expectedCount_pos {runs : RunTable} {r : AgentRun} (h : r ∈ runs.rows) {s : Scope}
    {k : DispatchState} (hc : r.countsFor s k = true) : 0 < expectedCount runs.rows s k :=
  List.countP_pos_iff.mpr ⟨r, h, hc⟩

/-- The ledger agrees with the runs, and has never clipped. -/
structure LedgerInv (db : Db) : Prop where
  lifecycle : ∀ r ∈ db.runs.rows, r.Lifecycle
  conserved : ∀ s k, k ≠ .finished →
    (bucketOf db.buckets s).count k = expectedCount db.runs.rows s k
  unclipped : ∀ m ∈ db.admissionLog, m.clipped = false

theorem ledgerInv_congr {db db' : Db} (h : SameLedger db db') (hl : LedgerInv db) :
    LedgerInv db' :=
  ⟨by rw [h.runs]; exact hl.lifecycle, by rw [h.runs, h.buckets]; exact hl.conserved,
    by rw [h.admissionLog]; exact hl.unclipped⟩

/-- A transition from a slot that is taken in every scope does not clip, and
moves the count of each scope. -/
theorem transitionRun_exact {l : AdmissionLimits} {db db' : Db} {run : AgentRun}
    {old : Option DispatchState} {new : DispatchState}
    (h : transitionRun l db run old new = .ok db')
    (htaken : ∀ d, old = some d → d ≠ .finished → ∀ s ∈ run.scopes,
      0 < (bucketOf db.buckets s).count d)
    (hclip : ∀ m ∈ db.admissionLog, m.clipped = false) :
    (∀ m ∈ db'.admissionLog, m.clipped = false) ∧
      ∀ s k, k ≠ .finished →
        (bucketOf db'.buckets s).count k + (if old = some k ∧ s ∈ run.scopes then 1 else 0)
          = (bucketOf db.buckets s).count k + (if new = k ∧ s ∈ run.scopes then 1 else 0) := by
  obtain ⟨buckets, rfl, hb⟩ := transitionRun_ok h
  constructor
  · intro m hm
    rcases List.mem_append.mp hm with hm | hm
    · exact hclip m hm
    · rw [List.mem_singleton] at hm
      rw [hm, List.any_eq_false]
      intro s hs
      cases old with
      | none => simp [clips]
      | some d =>
        cases d with
        | finished => simp [clips]
        | held | queued | claimed =>
          have hpos := htaken _ rfl (by simp) s hs
          simp only [clips, decide_eq_true_eq]
          omega
  · intro s k hk
    show (bucketOf buckets s).count k + _ = _
    by_cases hs : s ∈ run.scopes
    · rw [(bucketMove_ok ((hb s).2 hs)).2.1 k hk, moved]
      by_cases hold : old = some k
      · have hpos := htaken k hold hk s hs
        simp only [hold, hs, and_true, if_true]
        omega
      · simp [hold, hs]
    · rw [(hb s).1 hs]
      simp [hs]

/-- The callback changes neither buckets nor log, and the row only in its
event counter. -/
theorem announce_ledger {db db' : Db} {run : AgentRun} {event : Option String}
    (hfind : db.runs.find? run.runId = some run) (h : announce db run event = .ok db')
    (hl : LedgerInv db) : LedgerInv db' ∧ db'.buckets = db.buckets := by
  cases event with
  | none =>
    cases h
    exact ⟨hl, rfl⟩
  | some event =>
    obtain ⟨events, _, rfl⟩ := appendCallbackEvent_ok h
    refine ⟨⟨?_, fun s k hk => ?_, hl.unclipped⟩, rfl⟩
    · intro r hr
      obtain ⟨r₀, hr₀, rfl⟩ := List.mem_map.mp hr
      split
      · exact hl.lifecycle run (Table.mem_of_find? hfind)
      · exact hl.lifecycle r₀ hr₀
    · have hput := expectedCount_put (q := run.nextEvent) hfind s k
      have hsame : run.nextEvent.countsFor s k = run.countsFor s k := rfl
      rw [hsame] at hput
      show (bucketOf db.buckets s).count k = expectedCount (db.runs.put run.nextEvent).rows s k
      rw [hl.conserved s k hk]
      omega

/-- Carrying a move out keeps the ledger. -/
theorem settle_ledger {db db' : Db} {r r' : AgentRun} {shift : Shift} {event : Option String}
    (hfind : db.runs.find? r.runId = some r)
    (hmove : Move limits now causes r r' shift event)
    (hset : settle db r' shift event = .ok db') (hl : LedgerInv db) : LedgerInv db' := by
  have hr := hl.lifecycle r (Table.mem_of_find? hfind)
  have hr' := hmove.lifecycle hr
  have hexact := hmove.shift_exact hr
  have hscopes := hmove.scopes_eq
  rw [← hmove.runId_eq] at hfind
  obtain ⟨db₁, hshift, hev⟩ := settle_ok.mp hset
  have hruns := shiftSlot_runs hshift
  have hfind₁ : db₁.runs.find? r'.runId = some r' := by
    rw [hruns]
    exact Table.find?_put_self hfind
  refine (announce_ledger hfind₁ hev ?_).1
  have hlife : ∀ x ∈ db₁.runs.rows, x.Lifecycle := by
    intro x hx
    rw [hruns] at hx
    obtain ⟨x₀, hx₀, rfl⟩ := List.mem_map.mp hx
    split
    · exact hr'
    · exact hl.lifecycle x₀ hx₀
  cases shift with
  | none =>
    cases hshift
    refine ⟨hlife, fun s k hk => ?_, hl.unclipped⟩
    have hput := expectedCount_put hfind s k
    have hsame : r'.countsFor s k = r.countsFor s k := by
      simp only [AgentRun.countsFor, show r'.dispatchState = r.dispatchState from hexact, hscopes]
    rw [hsame] at hput
    show (bucketOf db.buckets s).count k = expectedCount (db.runs.put r').rows s k
    rw [hl.conserved s k hk]
    omega
  | some shift =>
    obtain ⟨l, old, new⟩ := shift
    obtain ⟨hold, hnew⟩ := hexact
    have hmem := Table.mem_of_find? hfind
    obtain ⟨hclip, hcount⟩ := transitionRun_exact hshift
      (fun d hd hfin s hs => by
        cases hd
        show 0 < (bucketOf db.buckets s).count old
        rw [hl.conserved s old hfin]
        refine expectedCount_pos hmem ?_
        simp [AgentRun.countsFor, hold, ← hscopes, hs])
      hl.unclipped
    refine ⟨hlife, fun s k hk => ?_, hclip⟩
    have hput := expectedCount_put hfind s k
    have hbuckets := hcount s k hk
    have hcons := hl.conserved s k hk
    rw [hruns]
    simp only [AgentRun.countsFor, hold, hnew, hscopes, Option.some.injEq,
      decide_eq_true_eq] at hput hbuckets
    omega

/-- **A turn keeps the ledger.** -/
theorem Turn.ledger {id : String} {db db' : Db} (h : Turn limits now causes id db db')
    (hl : LedgerInv db) : LedgerInv db' := by
  cases h with
  | idle h => exact ledgerInv_congr h hl
  | create run command definition policy callerId tenantId av hrun runs hins db₁ hadm plan hplan h =>
    suffices hl₁ : LedgerInv db₁ from
      ledgerInv_congr h ⟨hl₁.lifecycle, hl₁.conserved, hl₁.unclipped⟩
    obtain ⟨hclip, hcount⟩ := transitionRun_exact hadm (fun d hd => by cases hd) hl.unclipped
    have hruns : db₁.runs = runs := by
      obtain ⟨_, rfl, _⟩ := transitionRun_ok hadm
      rfl
    refine ⟨?_, fun s k hk => ?_, hclip⟩
    · intro x hx
      rw [hruns, (Table.insert?_eq_some.mp hins).2, List.mem_append, List.mem_singleton] at hx
      rcases hx with hx | rfl
      · exact hl.lifecycle x hx
      · subst hrun
        exact (streamInv_newRun id command definition policy callerId tenantId av now).lifecycle
    · have hins' := expectedCount_insert hins s k
      have hbuckets := hcount s k hk
      have hcons := hl.conserved s k hk
      rw [hruns]
      simp only [AgentRun.countsFor, decide_eq_true_eq] at hins' hbuckets
      simp only [reduceCtorEq, false_and, if_false, Nat.add_zero] at hbuckets
      omega
  | move r r' shift event hfind hmove db₁ hset h _ =>
    refine ledgerInv_congr h (settle_ledger ?_ hmove hset hl)
    rw [Table.key_of_find? hfind]
    exact hfind

theorem Turns.ledger {ids : List String} {db db' : Db}
    (h : Turns limits now causes ids db db') (hl : LedgerInv db) : LedgerInv db' := by
  induction h with
  | nil h => exact ledgerInv_congr h hl
  | cons h _ ih => exact ih (h.ledger hl)

theorem ledgerInv_init : LedgerInv {} :=
  ⟨fun r hr => absurd hr List.not_mem_nil, fun s k hk => by cases k <;> rfl,
    fun m hm => absurd hm List.not_mem_nil⟩

theorem ledger_step (limits : AdmissionLimits) (s : Sys) (e : Event) (h : LedgerInv s.db) :
    LedgerInv (step limits s e).db := by
  rcases step_cases limits s e with ⟨db, issued, hop, hs⟩ | hs
  · rw [hs]
    obtain ⟨ids, _, hturns⟩ := perform_turns hop
    exact hturns.ledger h
  · rw [hs]
    exact h

/-- **Conservation**: after every sequence of operations the buckets count
the runs, and no release ever clipped. -/
theorem admission_conserved (limits : AdmissionLimits) (es : List Event) :
    LedgerInv (reach limits es).db :=
  run_inv (I := fun s : Sys => LedgerInv s.db) (ledger_step limits) es {} ledgerInv_init

/-! ## Configured limits -/

/-- No count exceeds the limit the service is configured with. -/
def WithinLimits (limits : AdmissionLimits) (db : Db) : Prop :=
  ∀ s k n, limits.limit k = some n → (bucketOf db.buckets s).count k ≤ n

/-- The slot a cause takes without asking the configured limits. -/
def Cause.takes : Cause → Option DispatchState
  | .claim => some .claimed
  | .reap | .fallback => some .queued
  | .retry | .approve => none

/-- Every scope of the run has room for the slot the cause takes. -/
def Room (limits : AdmissionLimits) (db : Db) (c : Cause) (r : AgentRun) : Prop :=
  ∀ k n, c.takes = some k → limits.limit k = some n →
    ∀ s ∈ r.scopes, (bucketOf db.buckets s).count k < n

/-- The run is about to be requeued by the reaper. -/
def reapable (db : Db) (now : Time) (r : AgentRun) : Bool :=
  decide (r.dispatchState = .claimed ∧ r.LeaseExpired now) && packageExecutable db r

/-- The slots a step takes without asking are free by the configured limits:
of a run that is claimed or falls back, one in each scope; of the runs the
reaper requeues, all of them. -/
def AdmitsWithin (limits : AdmissionLimits) (s : Sys) (e : Event) : Prop :=
  match e.op with
  | .reapExpired => ∀ sc, (bucketOf s.db.buckets sc).queuedCount
      + s.db.runs.rows.countP (fun r => reapable s.db (s.clock + e.elapsed) r
          && decide (sc ∈ r.scopes)) ≤ limits.maxQueued
  | op => ∀ c r, Causes s.db (s.clock + e.elapsed) op c r → Room limits s.db c r

/-- A move checks the configured limits, or takes a slot the cause has room
for. -/
theorem Move.room {db : Db} {r r' : AgentRun} {l : AdmissionLimits} {old new : DispatchState}
    {event : Option String} (h : Move limits now causes r r' (some (l, old, new)) event)
    (hroom : ∀ c, causes c r → Room limits db c r) :
    l = limits ∨ ∀ n, limits.limit new = some n →
      ∀ s ∈ r.scopes, (bucketOf db.buckets s).count new < n := by
  cases h with
  | start => exact Or.inl rfl
  | cancelNow => exact Or.inl rfl
  | retry => exact Or.inl rfl
  | approve => exact Or.inl rfl
  | claim _ hc => exact Or.inr fun n hn => hroom .claim hc .claimed n rfl hn
  | reap _ _ hc => exact Or.inr fun n hn => hroom .reap hc .queued n rfl hn
  | fallback _ _ hc => exact Or.inr fun n hn => hroom .fallback hc .queued n rfl hn
  | finish => exact Or.inr fun n hn => by cases hn
  | pause => exact Or.inr fun n hn => by cases hn
  | terminate => exact Or.inr fun n hn => by cases hn

theorem transitionRun_within {l : AdmissionLimits} {db db' : Db} {run : AgentRun}
    {old : Option DispatchState} {new : DispatchState}
    (h : transitionRun l db run old new = .ok db')
    (hl : l = limits ∨ ∀ n, limits.limit new = some n →
      ∀ s ∈ run.scopes, (bucketOf db.buckets s).count new < n)
    (hw : WithinLimits limits db) : WithinLimits limits db' := by
  obtain ⟨buckets, rfl, hb⟩ := transitionRun_ok h
  intro s k n hn
  show (bucketOf buckets s).count k ≤ n
  have hk : k ≠ .finished := by
    rintro rfl
    cases hn
  by_cases hs : s ∈ run.scopes
  · obtain ⟨_, hcount, hlimit⟩ := bucketMove_ok ((hb s).2 hs)
    have hold := hw s k n hn
    by_cases hnew : new = k
    · subst hnew
      rcases hl with rfl | hroom
      · exact hlimit n hn
      · have hlt := hroom n hn s hs
        rw [hcount new hk, moved]
        split <;> simp only [if_true] <;> omega
    · rw [hcount k hk, moved, if_neg hnew]
      split <;> omega
  · rw [(hb s).1 hs]
    exact hw s k n hn

theorem announce_buckets {db db' : Db} {run : AgentRun} {event : Option String}
    (h : announce db run event = .ok db') : db'.buckets = db.buckets := by
  cases event with
  | none =>
    cases h
    rfl
  | some event =>
    obtain ⟨_, _, rfl⟩ := appendCallbackEvent_ok h
    rfl

theorem withinLimits_congr {db db' : Db} (h : db'.buckets = db.buckets)
    (hw : WithinLimits limits db) : WithinLimits limits db' := by
  unfold WithinLimits
  rw [h]
  exact hw

/-- A turn whose causes have room stays within the configured limits. -/
theorem Turn.within {id : String} {db db' : Db} (h : Turn limits now causes id db db')
    (hroom : ∀ c r, causes c r → Room limits db c r) (hw : WithinLimits limits db) :
    WithinLimits limits db' := by
  cases h with
  | idle h => exact withinLimits_congr h.buckets hw
  | create run command definition policy callerId tenantId av hrun runs hins db₁ hadm plan hplan h =>
    have hw₁ : WithinLimits limits db₁ :=
      transitionRun_within hadm (Or.inl rfl) (withinLimits_congr rfl hw)
    exact withinLimits_congr h.buckets hw₁
  | move r r' shift event hfind hmove db₁ hset h _ =>
    refine withinLimits_congr h.buckets ?_
    obtain ⟨db₂, hshift, hev⟩ := settle_ok.mp hset
    refine withinLimits_congr (announce_buckets hev) ?_
    cases shift with
    | none =>
      cases hshift
      exact hw
    | some shift =>
      obtain ⟨l, old, new⟩ := shift
      refine transitionRun_within hshift ?_ (withinLimits_congr rfl hw)
      rw [hmove.scopes_eq]
      exact hmove.room (fun c hc => hroom c r hc)

/-! ## The reaper's loop -/

/-- A claimed run that comes back into the queue was reaped. -/
theorem Move.reaped {r r' : AgentRun} {shift : Shift} {event : Option String}
    (h : Move limits now causes r r' shift event) (hl : r.Lifecycle)
    (hd : r.dispatchState = .claimed) (hq : r'.dispatchState = .queued) : causes .reap r := by
  cases h with
  | reap _ _ hc => exact hc
  | start hheld => rw [hd] at hheld; cases hheld
  | retry hs =>
    have ht : r.status.isTerminal = true := by rcases hs with hs | hs <;> rw [hs] <;> rfl
    have hfin := hl.finished_of_terminal ht
    rw [hd] at hfin
    cases hfin
  | approve _ hfin => rw [hd] at hfin; cases hfin
  | fallback _ hfin => rw [hd] at hfin; cases hfin
  | cancelNow => cases hq
  | reject => cases hq
  | claim => cases hq
  | finish => cases hq
  | pause => cases hq
  | terminate => cases hq
  | requestCancel | requestPurge | purge | renew | drain | stop | clearErrorCode | markRunning
  | setStarted | addActiveElapsed | bumpVersion | stepChanged =>
    exact absurd (hd.symm.trans hq) (by decide)

/-- What a turn on a claimed run does to the queue of a scope. -/
theorem Turn.queued_le {db db' : Db} {r : AgentRun}
    (h : Turn limits now causes r.runId db db') (hfind : db.runs.find? r.runId = some r)
    (hd : r.dispatchState = .claimed) (hl : LedgerInv db) (s : Scope) {n : Nat}
    (hn : causes .reap r → s ∈ r.scopes → 1 ≤ n) :
    (bucketOf db'.buckets s).queuedCount ≤ (bucketOf db.buckets s).queuedCount + n := by
  have hl' := h.ledger hl
  have hb : (bucketOf db.buckets s).queuedCount = expectedCount db.runs.rows s .queued :=
    hl.conserved s .queued (by decide)
  have hb' : (bucketOf db'.buckets s).queuedCount = expectedCount db'.runs.rows s .queued :=
    hl'.conserved s .queued (by decide)
  rw [hb, hb']
  cases h with
  | idle h => rw [h.runs]; omega
  | create run command definition policy callerId tenantId av hrun runs hins db₁ hadm plan hplan h =>
    obtain ⟨hnone, _⟩ := Table.insert?_eq_some.mp hins
    rw [hrun] at hnone
    exact absurd (hfind.symm.trans hnone) (by simp)
  | move r₀ r' shift event hfind₀ hmove db₁ hset h _ =>
    rw [hfind] at hfind₀
    cases hfind₀
    obtain ⟨db₂, hshift, hev⟩ := settle_ok.mp hset
    have hfind' : db.runs.find? r'.runId = some r := by rw [hmove.runId_eq]; exact hfind
    have hput := expectedCount_put hfind' s .queued
    have hrow : expectedCount db₁.runs.rows s .queued
        = expectedCount (db.runs.put r').rows s .queued := by
      have hruns₂ := shiftSlot_runs hshift
      cases event with
      | none =>
        cases hev
        rw [hruns₂]
      | some event =>
        obtain ⟨_, _, rfl⟩ := appendCallbackEvent_ok hev
        have hmid : db₂.runs.find? r'.runId = some r' := by
          rw [hruns₂]
          exact Table.find?_put_self hfind'
        have hput₂ := expectedCount_put (q := r'.nextEvent) hmid s .queued
        have hsame : r'.nextEvent.countsFor s .queued = r'.countsFor s .queued := rfl
        rw [hsame] at hput₂
        show expectedCount (db₂.runs.put r'.nextEvent).rows s .queued = _
        rw [← hruns₂]
        omega
    rw [h.runs, hrow]
    have hone : r'.countsFor s .queued = true → 1 ≤ n := by
      intro hc
      obtain ⟨hq, hs⟩ := of_decide_eq_true hc
      rw [hmove.scopes_eq] at hs
      exact hn (hmove.reaped (hl.lifecycle r (Table.mem_of_find? hfind)) hd hq) hs
    by_cases hc : r'.countsFor s .queued = true
    · have := hone hc
      rw [if_pos hc] at hput
      omega
    · rw [if_neg hc] at hput
      omega

/-- The loop of the reaper stays within the limits when the queues have room
for all it is going to requeue. -/
theorem reapAll_within :
    ∀ {l : List AgentRun} {db db' : Db} {recovered : List String},
      (l.map AgentRun.runId).Nodup → LeaseService.reapAll now db l = .ok (db', recovered) →
      (∀ r ∈ l, db.runs.find? r.runId = some r ∧ r.dispatchState = .claimed) →
      LedgerInv db → WithinLimits limits db →
      (∀ sc, (bucketOf db.buckets sc).queuedCount
        + l.countP (fun r => packageExecutable db r && decide (sc ∈ r.scopes))
          ≤ limits.maxQueued) →
      WithinLimits limits db'
  | [], db, db', _, _, h, _, _, hw, _ => by
    cases h
    exact hw
  | selected :: rest, db, db', _, hnd, h, hrows, hl, hw, hroom => by
    obtain ⟨⟨db₁, b⟩, hone, h⟩ := bind_ok.mp h
    obtain ⟨⟨db₂, others⟩, hrest, h⟩ := bind_ok.mp h
    obtain ⟨hnot, hnd'⟩ := List.nodup_cons.mp hnd
    obtain ⟨hfind, hd⟩ := hrows selected (List.mem_cons_self ..)
    have hturn : Turn limits now
        (fun c r => c = .reap ∧ r = selected ∧ packageExecutable db selected = true)
        selected.runId db db₁ := by
      refine reapOne_turn hone fun run hrun _ _ hpk => ?_
      rw [hfind] at hrun
      cases hrun
      exact ⟨rfl, rfl, hpk⟩
    have hslot : ∀ sc, packageExecutable db selected = true → sc ∈ selected.scopes →
        (bucketOf db.buckets sc).queuedCount + (1 + rest.countP
          (fun r => packageExecutable db r && decide (sc ∈ r.scopes))) ≤ limits.maxQueued := by
      intro sc hpk hsc
      have hsc' := hroom sc
      rw [List.countP_cons_of_pos (by simp [hpk, hsc])] at hsc'
      omega
    have hw₁ : WithinLimits limits db₁ := by
      refine hturn.within ?_ hw
      rintro c r ⟨rfl, rfl, hpk⟩ k n hk hn sc hsc
      cases hk
      cases hn
      have := hslot sc hpk hsc
      show (bucketOf db.buckets sc).queuedCount < limits.maxQueued
      omega
    have hdef := reapOne_definitions hone
    cases h
    refine reapAll_within hnd' hrest ?_ (hturn.ledger hl) hw₁ ?_
    · intro r hr
      have hne : r.runId ≠ selected.runId := fun he => hnot (he ▸ List.mem_map_of_mem hr)
      rw [hturn.find?_ne hne]
      exact hrows r (List.mem_cons_of_mem _ hr)
    · intro sc
      simp only [packageExecutable_congr hdef]
      by_cases hmine : packageExecutable db selected = true ∧ sc ∈ selected.scopes
      · have hle := hturn.queued_le hfind hd hl sc (n := 1) (fun _ _ => le_refl 1)
        have := hslot sc hmine.1 hmine.2
        omega
      · have hle := hturn.queued_le hfind hd hl sc (n := 0)
          (fun hc hsc => absurd ⟨hc.2.2, hsc⟩ hmine)
        have hsc' := hroom sc
        have hneg : ¬ (packageExecutable db selected && decide (sc ∈ selected.scopes)) = true := by
          simpa using hmine
        rw [List.countP_cons_of_neg
          (p := fun r : AgentRun => packageExecutable db r && decide (sc ∈ r.scopes)) hneg] at hsc'
        omega

/-- The ledger counts right and within the configured limits. -/
structure AdmissionInv (limits : AdmissionLimits) (s : Sys) : Prop where
  ledger : LedgerInv s.db
  within : WithinLimits limits s.db

theorem admissionInv_step (limits : AdmissionLimits) (s : Sys) (e : Event)
    (h : AdmissionInv limits s) (hfits : AdmitsWithin limits s e) :
    AdmissionInv limits (step limits s e) := by
  refine ⟨ledger_step limits s e h.ledger, ?_⟩
  rcases step_cases limits s e with ⟨db, issued, hperf, hs⟩ | hs
  · rw [hs]
    by_cases hop : e.op = .reapExpired
    · rw [hop] at hperf
      simp only [AdmitsWithin, hop] at hfits
      obtain ⟨⟨db₁, recovered⟩, hok, hperf⟩ := bind_ok.mp hperf
      cases hperf
      refine withinLimits_congr (rfl : _ = db₁.buckets) ?_
      refine reapAll_within ?_ hok ?_ h.ledger h.within ?_
      · exact s.db.runs.nodup.sublist (List.filter_sublist.map _)
      · intro r hr
        obtain ⟨hmem, hsel⟩ := List.mem_filter.mp hr
        exact ⟨Table.find?_of_mem hmem, (of_decide_eq_true hsel).1⟩
      · intro sc
        have hsc := hfits sc
        rw [List.countP_filter]
        refine le_trans (le_of_eq ?_) hsc
        congr 2
        funext r
        simp only [reapable]
        cases packageExecutable s.db r <;> cases decide (sc ∈ r.scopes) <;> simp
    · obtain ⟨id, hturn⟩ := perform_turn hop hperf
      refine hturn.within (fun c r hc => ?_) h.within
      unfold AdmitsWithin at hfits
      split at hfits
      next heq => exact absurd heq hop
      · exact hfits c r hc
  · rw [hs]
    exact h.within

theorem admissionInv_init (limits : AdmissionLimits) : AdmissionInv limits {} :=
  ⟨ledgerInv_init, fun s k n _ => by cases k <;> exact Nat.zero_le n⟩

/-- **The admission ledger**: along a run whose steps find room by the
configured limits for the slots nobody checks against them, the buckets
count the runs, no release clips, and no count exceeds its limit. -/
theorem admission_ledger (limits : AdmissionLimits) (es : List Event)
    (h : Along (step limits) (AdmitsWithin limits) {} es) :
    AdmissionInv limits (reach limits es) :=
  along_inv (admissionInv_step limits) es {} (admissionInv_init limits) h

/-- The package is registered and a run is created, ready to be claimed. -/
def queuedRun : List Event :=
  claimedRun.take 2

theorem admission_ledger_claimed :
    AdmissionInv { maxRunning := 1 } (reach { maxRunning := 1 } claimedRun) := by
  refine admission_ledger _ claimedRun ⟨?_, ?_, ?_, trivial⟩
  · rintro c r ⟨_, hc⟩
    cases c <;> exact hc.elim
  · rintro c r ⟨_, hc⟩
    cases c <;> exact hc.elim
  · rintro c r ⟨hrow, hc⟩ k n hk hn s hs
    cases c <;> first | exact hc.elim | skip
    cases hk
    cases hn
    have hscopes : ((reach { maxRunning := 1 } queuedRun).db.runs.find? "run-1").map
        AgentRun.scopes = some [.global, .caller "caller", .tenant "tenant", .agent "memoir"] := rfl
    rw [← hc.1, show (reach { maxRunning := 1 } queuedRun).db.runs.find? r.runId = some r
      from hrow] at hscopes
    rw [Option.some.inj hscopes] at hs
    simp only [List.mem_cons, List.not_mem_nil, or_false] at hs
    rcases hs with rfl | rfl | rfl | rfl <;> decide

/-- A second run is created and claimed while the first is running. -/
def secondClaim : List Event :=
  [after 1 (.create "run-2" (sampleCommand .auto) "caller" "tenant" 1),
   after 1 (.claim "run-2" "worker-2" 90)]

/-- A claim asks the built-in limits, and passes the configured one. -/
theorem configured_limit_exceeded :
    ¬ ∀ (limits : AdmissionLimits) (es : List Event), AdmissionInv limits (reach limits es) := by
  intro hall
  have hle := (hall { maxRunning := 1 } (claimedRun ++ secondClaim)).within
    (.caller "caller") .claimed 1 rfl
  exact absurd hle (by decide)

end AgentRuntime
