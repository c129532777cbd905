import AgentRuntime.AdmissionRejections
import AgentRuntime.Conservation

/-!
# The repair of the admission buckets

A pass first lets the reaper move the buckets of the session, unflushed, and
then compares every stored bucket with the runs. A bucket the reaper has
moved has a new version in the session and the old one in the store, so when
it is wrong the conditional update misses it; expiring it then throws the
reaper's own move away as well, and the bucket is what it was before the pass.

`Shifted` says what the reaper does to a bucket and to the runs it counts,
`Survives` which buckets come through. The repair leaves the counts right
exactly where they do (`bucket_repaired_iff`), and the rest of the pass keeps
right what is right (`Exact.repairRun`, `Exact.repairDeadLetter`).
-/

namespace AgentRuntime

open Keyed

namespace ReconciliationService

/-- The bucket counts the runs of its scope. -/
def CountsRuns (db : Db) (s : Scope) : Prop :=
  ∀ k, k ≠ .finished → (bucketOf db.buckets s).count k = expectedCount db.runs.rows s k

/-! ## What the reaper moves -/

/-- `n` runs of the scope are no longer claimed, and `m` of them are queued; the
bucket has followed as far as it could. -/
structure Shifted (s : Scope) (n m : Nat) (db db' : Db) : Prop where
  held : (bucketOf db'.buckets s).heldCount = (bucketOf db.buckets s).heldCount
  queued : (bucketOf db'.buckets s).queuedCount = (bucketOf db.buckets s).queuedCount + m
  running : (bucketOf db'.buckets s).runningCount = (bucketOf db.buckets s).runningCount - n
  version : (bucketOf db'.buckets s).version = (bucketOf db.buckets s).version + n
  runsHeld : expectedCount db'.runs.rows s .held = expectedCount db.runs.rows s .held
  runsQueued : expectedCount db'.runs.rows s .queued = expectedCount db.runs.rows s .queued + m
  runsClaimed : expectedCount db'.runs.rows s .claimed + n = expectedCount db.runs.rows s .claimed

section Reaper

open LeaseService

variable {s : Scope} {now : Time} {db db₁ db' : Db}

theorem Shifted.refl (s : Scope) (db : Db) : Shifted s 0 0 db db :=
  ⟨rfl, rfl, rfl, rfl, rfl, rfl, rfl⟩

theorem Shifted.trans {n m n' m' : Nat} (h₁ : Shifted s n m db db₁) (h₂ : Shifted s n' m' db₁ db') :
    Shifted s (n + n') (m + m') db db' where
  held := h₂.held.trans h₁.held
  queued := by rw [h₂.queued, h₁.queued, Nat.add_assoc]
  running := by rw [h₂.running, h₁.running, Nat.sub_sub]
  version := by rw [h₂.version, h₁.version, Nat.add_assoc]
  runsHeld := h₂.runsHeld.trans h₁.runsHeld
  runsQueued := by rw [h₂.runsQueued, h₁.runsQueued, Nat.add_assoc]
  runsClaimed := by
    have h := h₂.runsClaimed
    have h' := h₁.runsClaimed
    omega

theorem version_bucketMove {limits : AdmissionLimits} {old : Option DispatchState}
    {new : DispatchState} {b b' : AdmissionBucket} (h : bucketMove limits old new b = .ok b') :
    b'.version = b.version + 1 := by
  obtain ⟨c, hc, hb'⟩ := bind_ok.mp h
  cases hb'
  have hset : ∀ (b : AdmissionBucket) (n : Nat) (d : DispatchState),
      (b.setCount n d).version = b.version := fun b n d => by cases d <;> rfl
  have hreleased : (releaseSlot b old).version = b.version := by
    cases old with
    | none => rfl
    | some d => exact hset b _ d
  have htaken : c.version = (releaseSlot b old).version := by
    unfold takeSlot at hc
    split at hc
    · cases hc
      rfl
    · split at hc
      · cases hc
      · cases hc
        exact hset _ _ _
  show c.version + 1 = b.version + 1
  rw [htaken, hreleased]

/-- A claimed run leaves, for the queue or for good. -/
theorem shifted_of_leaves {r r' : AgentRun} {new : DispatchState}
    (hrow : db.runs.find? r'.runId = some r) (hscopes : r'.scopes = r.scopes)
    (hclaimed : r.dispatchState = .claimed) (hnew : r'.dispatchState = new)
    (hq : new = .queued ∨ new = .finished)
    (h : transitionRun {} { db with runs := db.runs.put r' } r' (some .claimed) new = .ok db') :
    Shifted s (if s ∈ r.scopes then 1 else 0)
      (if s ∈ r.scopes ∧ new = .queued then 1 else 0) db db' := by
  obtain ⟨buckets, rfl, hmoved⟩ := transitionRun_ok h
  have hput := fun k => expectedCount_put hrow s k
  simp only [AgentRun.countsFor, hscopes, hclaimed, hnew] at hput
  have hheld := hput .held
  have hqueued := hput .queued
  have hrunning := hput .claimed
  by_cases hs : s ∈ r.scopes
  · have hmove := (hmoved s).2 (hscopes ▸ hs)
    have hcount := (bucketMove_ok hmove).2.1
    have hversion := version_bucketMove hmove
    rcases hq with rfl | rfl
    · simp [hs] at hheld hqueued hrunning ⊢
      exact ⟨hcount .held (by decide), hcount .queued (by decide), hcount .claimed (by decide),
        hversion, hheld, hqueued, hrunning⟩
    · simp [hs] at hheld hqueued hrunning ⊢
      exact ⟨hcount .held (by decide), hcount .queued (by decide), hcount .claimed (by decide),
        hversion, hheld, hqueued, hrunning⟩
  · have hsame : bucketOf buckets s = bucketOf db.buckets s := (hmoved s).1 (hscopes ▸ hs)
    simp [hs] at hheld hqueued hrunning ⊢
    refine ⟨?_, ?_, ?_, ?_, hheld, hqueued, hrunning⟩ <;> rw [show bucketOf _ s = _ from hsame] <;> rfl

theorem expectedCount_nextEvent {runs : RunTable} {run : AgentRun}
    (hrow : runs.find? run.runId = some run) (s : Scope) (k : DispatchState) :
    expectedCount (runs.put run.nextEvent).rows s k = expectedCount runs.rows s k :=
  Nat.add_right_cancel (expectedCount_put (q := run.nextEvent) hrow s k)

/-- A callback moves no slot. -/
theorem shifted_of_callback {run : AgentRun} {status : RunStatus}
    (hrow : db.runs.find? run.runId = some run) (h : appendCallback db run status = .ok db') :
    Shifted s 0 0 db db' := by
  obtain ⟨event, _, hev⟩ := appendCallback_ok h
  obtain ⟨events, _, rfl⟩ := appendCallbackEvent_ok hev
  exact ⟨rfl, rfl, rfl, rfl, expectedCount_nextEvent hrow s .held,
    expectedCount_nextEvent hrow s .queued, expectedCount_nextEvent hrow s .claimed⟩

theorem reapOne_shifted {r : AgentRun} {b : Bool} (hrow : db.runs.find? r.runId = some r)
    (hsel : r.dispatchState = .claimed ∧ r.LeaseExpired now)
    (h : reapOne db now r = .ok (db', b)) :
    Shifted s (if s ∈ r.scopes then 1 else 0)
      (if s ∈ r.scopes ∧ packageExecutable db r = true then 1 else 0) db db' := by
  unfold reapOne at h
  rw [hrow] at h
  dsimp only at h
  rw [if_pos ⟨rfl, hsel⟩] at h
  cases hx : packageExecutable db r with
  | true =>
    rw [if_pos hx] at h
    obtain ⟨db₁, hadm, h⟩ := bind_ok.mp h
    cases h
    have hrow' : db.runs.find? (r.reap now).runId = some r := hrow
    have hshift : Shifted s (if s ∈ r.scopes then 1 else 0)
        (if s ∈ r.scopes ∧ DispatchState.queued = .queued then 1 else 0) db db₁ :=
      shifted_of_leaves hrow' rfl hsel.1 rfl (Or.inl rfl) hadm
    simp only [and_true] at hshift ⊢
    exact ⟨hshift.held, hshift.queued, hshift.running, hshift.version, hshift.runsHeld,
      hshift.runsQueued, hshift.runsClaimed⟩
  | false =>
    rw [if_neg (by rw [hx]; exact Bool.false_ne_true)] at h
    obtain ⟨db₁, hadm, h⟩ := bind_ok.mp h
    obtain ⟨db₂, hcb, h⟩ := bind_ok.mp h
    cases h
    let ended := r.endWith now .cancelled (some "PACKAGE_REVOKED")
    have hrow' : db.runs.find? ended.runId = some r := hrow
    have hshift : Shifted s (if s ∈ r.scopes then 1 else 0)
        (if s ∈ r.scopes ∧ DispatchState.finished = .queued then 1 else 0) db db₁ :=
      shifted_of_leaves hrow' rfl hsel.1 rfl (Or.inr rfl) hadm
    have hput : db₁.runs.find? ended.runId = some ended := by
      rw [(transitionRun_frame hadm).1]
      exact Table.find?_put_self (a := ended) hrow'
    have hboth := hshift.trans (shifted_of_callback hput hcb)
    simpa using hboth

/-- Reaping a run leaves the rows of the others alone. -/
theorem reapOne_find?_ne {r : AgentRun} {b : Bool} {q : String}
    (h : reapOne db now r = .ok (db', b)) (hq : q ≠ r.runId) :
    db'.runs.find? q = db.runs.find? q := by
  have hturn : Turn {} now (fun _ _ => True) r.runId db db' :=
    reapOne_turn h fun _ _ _ _ _ => trivial
  exact hturn.find?_ne hq

theorem demand_cons (r : AgentRun) (rest : List AgentRun) (s : Scope) :
    Slots.demand AgentRun.scopes (r :: rest) s
      = (if s ∈ r.scopes then 1 else 0) + Slots.demand AgentRun.scopes rest s := by
  by_cases hs : s ∈ r.scopes
  · rw [Slots.demand_cons_of_mem hs, if_pos hs, Nat.add_comm]
  · rw [Slots.demand_cons_of_not_mem hs, if_neg hs, Nat.zero_add]

theorem demand_filter_cons (p : AgentRun → Bool) (r : AgentRun) (rest : List AgentRun) (s : Scope) :
    Slots.demand AgentRun.scopes ((r :: rest).filter p) s
      = (if s ∈ r.scopes ∧ p r = true then 1 else 0)
        + Slots.demand AgentRun.scopes (rest.filter p) s := by
  cases hp : p r with
  | true =>
    rw [List.filter_cons_of_pos hp, demand_cons]
    simp
  | false =>
    rw [List.filter_cons_of_neg (by rw [hp]; exact Bool.false_ne_true)]
    simp

theorem reapAll_shifted (s : Scope) (db₀ : Db) : ∀ {l : List AgentRun} {db db' : Db}
    {ids : List String}, (l.map (·.runId)).Nodup →
    (∀ r ∈ l, db.runs.find? r.runId = some r ∧ r.dispatchState = .claimed ∧ r.LeaseExpired now) →
    db.definitions = db₀.definitions → reapAll now db l = .ok (db', ids) →
    Shifted s (Slots.demand AgentRun.scopes l s)
      (Slots.demand AgentRun.scopes (l.filter (fun r => packageExecutable db₀ r)) s) db db'
  | [], db, _, _, _, _, _, h => by
    cases h
    exact .refl s db
  | r :: rest, db, db', _, hnd, hrows, hdefs, h => by
    obtain ⟨⟨db₁, b⟩, hone, h⟩ := bind_ok.mp h
    obtain ⟨⟨db₂, others⟩, hrest, h⟩ := bind_ok.mp h
    cases h
    obtain ⟨hnot, hnd'⟩ := List.nodup_cons.mp hnd
    obtain ⟨hrow, hsel⟩ := hrows r List.mem_cons_self
    have hrows' : ∀ p ∈ rest, db₁.runs.find? p.runId = some p ∧
        p.dispatchState = .claimed ∧ p.LeaseExpired now := fun p hp => by
      obtain ⟨hp', hsel'⟩ := hrows p (List.mem_cons_of_mem r hp)
      refine ⟨?_, hsel'⟩
      rw [reapOne_find?_ne hone fun he => hnot (List.mem_map.mpr ⟨p, hp, he⟩)]
      exact hp'
    have hfirst := reapOne_shifted (s := s) hrow hsel hone
    rw [executable_congr hdefs] at hfirst
    rw [demand_cons, demand_filter_cons]
    exact hfirst.trans (reapAll_shifted s db₀ hnd' hrows'
      ((reapOne_definitions hone).trans hdefs) hrest)

/-! ## Stored buckets -/

/-- A bucket that exists is there after the loop over the scopes. -/
theorem moveScopes_keeps {limits : AdmissionLimits} {old : Option DispatchState}
    {new : DispatchState} {s : Scope} : ∀ {scopes : List Scope} {buckets buckets' : BucketTable},
    moveScopes limits old new buckets scopes = .ok buckets' →
      (buckets.find? s).isSome = true → (buckets'.find? s).isSome = true
  | [], _, _, h, hb => by
    cases h
    exact hb
  | t :: rest, buckets, _, h, hb => by
    obtain ⟨b, _, hrest⟩ := bind_ok.mp h
    refine moveScopes_keeps hrest ?_
    rw [Table.find?_upsert]
    split
    · rfl
    · exact hb

theorem transitionRun_keeps {limits : AdmissionLimits} {old : Option DispatchState}
    {new : DispatchState} {run : AgentRun}
    (h : transitionRun limits db run old new = .ok db') (hb : (db.buckets.find? s).isSome = true) :
    (db'.buckets.find? s).isSome = true := by
  obtain ⟨buckets, hmove, hdb⟩ := bind_ok.mp h
  cases hdb
  exact moveScopes_keeps hmove hb

theorem reapOne_keeps {selected : AgentRun} {b : Bool}
    (h : reapOne db now selected = .ok (db', b)) (hb : (db.buckets.find? s).isSome = true) :
    (db'.buckets.find? s).isSome = true := by
  unfold reapOne at h
  split at h
  · cases h
    exact hb
  · split at h
    · split at h
      · obtain ⟨db₁, hadm, h⟩ := bind_ok.mp h
        cases h
        have hkept := transitionRun_keeps hadm hb
        exact hkept
      · obtain ⟨db₁, hadm, h⟩ := bind_ok.mp h
        obtain ⟨db₂, hcb, h⟩ := bind_ok.mp h
        cases h
        obtain ⟨_, _, hev⟩ := appendCallback_ok hcb
        obtain ⟨_, _, rfl⟩ := appendCallbackEvent_ok hev
        have hkept := transitionRun_keeps hadm hb
        exact hkept
    · cases h
      exact hb

theorem reapAll_keeps : ∀ {l : List AgentRun} {db db' : Db} {ids : List String},
    reapAll now db l = .ok (db', ids) → (db.buckets.find? s).isSome = true →
      (db'.buckets.find? s).isSome = true
  | [], _, _, _, h, hb => by
    cases h
    exact hb
  | r :: rest, db, db', _, h, hb => by
    obtain ⟨⟨db₁, b⟩, hone, h⟩ := bind_ok.mp h
    obtain ⟨⟨db₂, others⟩, hrest, h⟩ := bind_ok.mp h
    cases h
    exact reapAll_keeps hrest (reapOne_keeps hone hb)

/-- The runs of the scope whose lease the reaper finds expired. -/
def reapedIn (db : Db) (now : Time) (s : Scope) : Nat :=
  Slots.demand AgentRun.scopes (expired db now) s

/-- Those it puts back into the queue. -/
def requeuedIn (db : Db) (now : Time) (s : Scope) : Nat :=
  Slots.demand AgentRun.scopes (recoverable db now) s

/-- **A stored bucket that comes through the repair**: no run of its scope is
reaped, or it counts the runs as they stand before the reaper, or as they stand
after it. -/
def Survives (db : Db) (now : Time) (b : AdmissionBucket) : Prop :=
  reapedIn db now b.scope = 0 ∨
  (b.heldCount = expectedCount db.runs.rows b.scope .held ∧
    b.queuedCount = expectedCount db.runs.rows b.scope .queued ∧
    b.runningCount - reapedIn db now b.scope
      = expectedCount db.runs.rows b.scope .claimed - reapedIn db now b.scope) ∨
  (b.heldCount = expectedCount db.runs.rows b.scope .held ∧
    b.queuedCount = expectedCount db.runs.rows b.scope .queued + requeuedIn db now b.scope ∧
    b.runningCount + reapedIn db now b.scope = expectedCount db.runs.rows b.scope .claimed)

theorem reapExpired_shifted {ids : List String} (h : reapExpired db now = .ok (db₁, ids))
    (s : Scope) : Shifted s (reapedIn db now s) (requeuedIn db now s) db db₁ := by
  have hsel : ∀ r ∈ expired db now, db.runs.find? r.runId = some r ∧
      r.dispatchState = .claimed ∧ r.LeaseExpired now := fun r hr =>
    ⟨Table.find?_of_mem (List.mem_filter.mp hr).1, of_decide_eq_true (List.mem_filter.mp hr).2⟩
  exact reapAll_shifted s db (db.runs.nodup.sublist (List.filter_sublist.map _)) hsel rfl h

/-- A scope of which the bucket counts the three states of the runs. -/
theorem countsRuns_iff {s : Scope} : CountsRuns db s ↔
    (bucketOf db.buckets s).heldCount = expectedCount db.runs.rows s .held ∧
    (bucketOf db.buckets s).queuedCount = expectedCount db.runs.rows s .queued ∧
    (bucketOf db.buckets s).runningCount = expectedCount db.runs.rows s .claimed := by
  constructor
  · intro h
    exact ⟨h .held (by decide), h .queued (by decide), h .claimed (by decide)⟩
  · rintro ⟨hheld, hqueued, hrunning⟩ k hk
    cases k with
    | held => exact hheld
    | queued => exact hqueued
    | claimed => exact hrunning
    | finished => exact absurd rfl hk

/-- **The repair** makes a stored bucket right exactly when it survives: a
bucket that the reaper has moved and that is wrong misses the version check. -/
theorem bucket_repaired_iff {ids : List String} (h : reapExpired db now = .ok (db₁, ids))
    {b : AdmissionBucket} (hb : b ∈ db.buckets.rows) :
    CountsRuns (reconcileAdmissionBuckets db.buckets db₁) b.scope ↔ Survives db now b := by
  have hstored : db.buckets.find? b.scope = some b := Table.find?_of_mem hb
  have hold : bucketOf db.buckets b.scope = b := by
    unfold bucketOf
    rw [hstored]
    rfl
  obtain ⟨b₁, hb₁⟩ : ∃ b₁, db₁.buckets.find? b.scope = some b₁ :=
    Option.isSome_iff_exists.mp (reapAll_keeps h (by rw [hstored]; rfl))
  have hscope : b₁.scope = b.scope := Table.key_of_find? hb₁
  have hnew : bucketOf db₁.buckets b.scope = b₁ := by
    unfold bucketOf
    rw [hb₁]
    rfl
  have hafter : bucketOf (reconcileAdmissionBuckets db.buckets db₁).buckets b.scope
      = reconcileBucket db₁.runs.rows db.buckets b₁ := by
    unfold bucketOf reconcileAdmissionBuckets
    dsimp only
    rw [Table.find?_mapRows, hb₁]
    rfl
  have hshift := reapExpired_shifted h b.scope
  obtain ⟨hheld, hqueued, hrunning, hversion, hrunsHeld, hrunsQueued, hrunsClaimed⟩ := hshift
  rw [hnew, hold] at hheld hqueued hrunning hversion
  rw [countsRuns_iff, hafter]
  have hruns : (reconcileAdmissionBuckets db.buckets db₁).runs = db₁.runs := rfl
  rw [hruns]
  unfold reconcileBucket
  rw [hscope]
  by_cases hright : b₁.heldCount = expectedCount db₁.runs.rows b.scope .held ∧
      b₁.queuedCount = expectedCount db₁.runs.rows b.scope .queued ∧
      b₁.runningCount = expectedCount db₁.runs.rows b.scope .claimed
  · -- what the reaper has left agrees with the runs, and is flushed by the commit
    rw [if_pos hright]
    refine iff_of_true hright (Or.inr (Or.inl ⟨?_, ?_, ?_⟩)) <;> omega
  · rw [if_neg hright, hstored]
    dsimp only
    by_cases hzero : reapedIn db now b.scope = 0
    · rw [if_pos (by omega)]
      exact iff_of_true ⟨rfl, rfl, rfl⟩ (Or.inl hzero)
    · -- the version in the store is the old one: the update misses, and the bucket is read back
      rw [if_neg (by omega)]
      unfold Survives
      constructor
      · rintro ⟨hbheld, hbqueued, hbrunning⟩
        refine Or.inr (Or.inr ⟨?_, ?_, ?_⟩) <;> omega
      · rintro (h | ⟨h₁, h₂, h₃⟩ | ⟨h₁, h₂, h₃⟩)
        · exact absurd h hzero
        · refine absurd ⟨?_, ?_, ?_⟩ hright <;> omega
        · refine ⟨?_, ?_, ?_⟩ <;> omega

end Reaper

/-! ## The rest of the pass -/

/-- A part of the pass after the repair: a bucket that is right stays right, and
one that is wrong stays wrong unless a release clips at zero. -/
structure KeepsCounts (s : Scope) (db db' : Db) : Prop where
  right : CountsRuns db s → CountsRuns db' s
  wrong : ∃ moves, db'.admissionLog = db.admissionLog ++ moves ∧
    ((∀ m ∈ moves, m.clipped = false) → CountsRuns db' s → CountsRuns db s)

section Rest

variable {s : Scope} {current now : Time} {resolver : Resolver} {db db₁ db' : Db}

/-- Where nothing that the buckets count has moved. -/
theorem KeepsCounts.of_same (hbuckets : db'.buckets = db.buckets)
    (hlog : db'.admissionLog = db.admissionLog)
    (hruns : ∀ k, expectedCount db'.runs.rows s k = expectedCount db.runs.rows s k) :
    KeepsCounts s db db' := by
  have hsame : CountsRuns db' s ↔ CountsRuns db s := by
    unfold CountsRuns
    rw [hbuckets]
    exact forall₂_congr fun k _ => by rw [hruns k]
  exact ⟨hsame.mpr, [], by rw [hlog, List.append_nil], fun _ => hsame.mp⟩

theorem KeepsCounts.refl (s : Scope) (db : Db) : KeepsCounts s db db :=
  .of_same rfl rfl fun _ => rfl

theorem KeepsCounts.trans (h₁ : KeepsCounts s db db₁) (h₂ : KeepsCounts s db₁ db') :
    KeepsCounts s db db' := by
  obtain ⟨moves₁, hlog₁, hback₁⟩ := h₁.wrong
  obtain ⟨moves₂, hlog₂, hback₂⟩ := h₂.wrong
  refine ⟨fun h => h₂.right (h₁.right h), moves₁ ++ moves₂, ?_, fun hclip h => ?_⟩
  · rw [hlog₂, hlog₁, List.append_assoc]
  · refine hback₁ (fun m hm => hclip m (List.mem_append_left _ hm)) (hback₂ (fun m hm => ?_) h)
    exact hclip m (List.mem_append_right _ hm)

theorem clips_some {b : AdmissionBucket} {d : DispatchState} (hd : d ≠ .finished) :
    clips b (some d) = decide (b.count d = 0) := by
  cases d with
  | finished => exact absurd rfl hd
  | held | queued | claimed => rfl

/-- The row of a run moves between two states, and its slot with it. -/
theorem keepsCounts_of_moves {l : AdmissionLimits} {r r' : AgentRun} {old new : DispatchState}
    (hrow : db.runs.find? r'.runId = some r) (hscopes : r'.scopes = r.scopes)
    (hold : r.dispatchState = old) (hnew : r'.dispatchState = new)
    (h : transitionRun l { db with runs := db.runs.put r' } r' (some old) new = .ok db') :
    KeepsCounts s db db' := by
  obtain ⟨buckets, rfl, hmoved⟩ := transitionRun_ok h
  have hput := fun k => expectedCount_put hrow s k
  simp only [AgentRun.countsFor, hscopes, hold, hnew, decide_eq_true_eq] at hput
  have hmem := Table.mem_of_find? hrow
  by_cases hs : s ∈ r.scopes
  · have hcount := (bucketMove_ok ((hmoved s).2 (hscopes ▸ hs))).2.1
    simp only [hs, and_true] at hput
    refine ⟨fun hright k hk => ?_, _, rfl, fun hclip hright k hk => ?_⟩
    · have hthis := hright k hk
      have hpk := hput k
      show (bucketOf buckets s).count k = _
      rw [hcount k hk, moved]
      show (if some old = some k then (bucketOf db.buckets s).count k - 1
        else (bucketOf db.buckets s).count k) + _ = expectedCount (db.runs.put r').rows s k
      by_cases hok : old = k
      · have hpos : 0 < expectedCount db.runs.rows s k :=
          expectedCount_pos hmem (decide_eq_true ⟨hold.trans hok, hs⟩)
        rw [if_pos hok] at hpk
        rw [if_pos (by rw [hok])]
        omega
      · rw [if_neg hok] at hpk
        rw [if_neg fun he => hok (Option.some.inj he)]
        omega
    · have hthis : (bucketOf buckets s).count k = expectedCount (db.runs.put r').rows s k :=
        hright k hk
      have hpk := hput k
      rw [hcount k hk, moved] at hthis
      have hthis : (if some old = some k then (bucketOf db.buckets s).count k - 1
        else (bucketOf db.buckets s).count k) + (if new = k then 1 else 0)
          = expectedCount (db.runs.put r').rows s k := hthis
      by_cases hok : old = k
      · have hnoclip := hclip _ (List.mem_singleton.mpr rfl)
        have hpos : (bucketOf db.buckets s).count k ≠ 0 := by
          have hat := List.any_eq_false.mp hnoclip s (hscopes ▸ hs)
          rw [clips_some (hok ▸ hk), hok, decide_eq_true_eq] at hat
          exact hat
        rw [if_pos hok] at hpk
        rw [if_pos (by rw [hok])] at hthis
        omega
      · rw [if_neg hok] at hpk
        rw [if_neg fun he => hok (Option.some.inj he)] at hthis
        omega
  · have hsame : bucketOf buckets s = bucketOf db.buckets s := (hmoved s).1 (hscopes ▸ hs)
    simp only [hs, and_false, if_false, Nat.add_zero] at hput
    have hiff : ∀ k, (bucketOf buckets s).count k = expectedCount (db.runs.put r').rows s k ↔
        (bucketOf db.buckets s).count k = expectedCount db.runs.rows s k := fun k => by
      rw [hsame, hput k]
    exact ⟨fun hright k hk => (hiff k).mpr (hright k hk), _, rfl,
      fun _ hright k hk => (hiff k).mp (hright k hk)⟩

theorem keepsCounts_of_callback {run : AgentRun} {status : RunStatus}
    (hrow : db.runs.find? run.runId = some run) (h : appendCallback db run status = .ok db') :
    KeepsCounts s db db' := by
  obtain ⟨_, _, hev⟩ := appendCallback_ok h
  obtain ⟨_, _, rfl⟩ := appendCallbackEvent_ok hev
  exact .of_same rfl rfl fun k => expectedCount_nextEvent hrow s k

/-- A row written without a change of its dispatch state. -/
theorem keepsCounts_of_put {r r' : AgentRun} (hrow : db.runs.find? r'.runId = some r)
    (hscopes : r'.scopes = r.scopes) (hstate : r'.dispatchState = r.dispatchState) :
    KeepsCounts s db { db with runs := db.runs.put r' } := by
  refine .of_same rfl rfl fun k => ?_
  have hput := expectedCount_put hrow s k
  have hsame : r'.countsFor s k = r.countsFor s k := by
    unfold AgentRun.countsFor
    rw [hscopes, hstate]
  rw [hsame] at hput
  exact Nat.add_right_cancel hput

theorem keepsCounts_of_terminates {loaded : AgentRun} {status : RunStatus} {code : String}
    (h : Terminates current loaded status code db db') : KeepsCounts s db db' := by
  obtain ⟨r, db₁, hfind, hsame, hadm, hcb⟩ := h
  let ended := r.terminate current status code
  have hrow : db.runs.find? ended.runId = some r := by
    show db.runs.find? r.runId = some r
    rw [Table.key_of_find? hfind]
    exact hfind
  have hput : db₁.runs.find? ended.runId = some ended := by
    rw [(transitionRun_frame hadm).1]
    exact Table.find?_put_self (a := ended) hrow
  exact (keepsCounts_of_moves hrow rfl hsame.2.1 rfl hadm).trans (keepsCounts_of_callback hput hcb)

/-- Every update of a turn keeps the counts. -/
theorem updates_keepsCounts (run : AgentRun) :
    Updates (KeepsCounts s) current now resolver db run where
  terminate status code _ :=
    (terminate_repairs db run status code).imp fun _ h => keepsCounts_of_terminates h
  stop write hw := by
    refine (requestStop_repairs db run write).imp fun db' h => ?_
    obtain ⟨r, hfind, _, rfl⟩ := h
    have hrow : db.runs.find? (write r).runId = some r := by
      have hid : (write r).runId = r.runId := by cases hw <;> rfl
      rw [hid, Table.key_of_find? hfind]
      exact hfind
    exact keepsCounts_of_put hrow (by cases hw <;> rfl) (by cases hw <;> rfl)
  purge := by
    refine (repairPurge_repairs db run).imp fun db' h => ?_
    obtain ⟨_, r, hfind, _, rfl⟩ := h
    have hrow : db.runs.find? (r.purge now).runId = some r := by
      show db.runs.find? r.runId = some r
      rw [Table.key_of_find? hfind]
      exact hfind
    exact (keepsCounts_of_put hrow rfl rfl).trans (.of_same rfl rfl fun _ => rfl)
  missing := by
    refine (repairMissingRunDispatch_repairs db run).imp fun db' h => ?_
    rcases h with ⟨_, rfl⟩ | ⟨_, rfl⟩
    · exact .of_same rfl rfl fun _ => rfl
    · exact .of_same rfl rfl fun _ => rfl
  requeue _ := by
    refine (requeueTimeoutFallback_repairs db run).imp fun db' h => ?_
    obtain ⟨r, db₁, hfind, _, hd, hadm, rfl⟩ := h
    have hrow : db.runs.find? (r.requeueFallback current).runId = some r := by
      show db.runs.find? r.runId = some r
      rw [Table.key_of_find? hfind]
      exact hfind
    exact (keepsCounts_of_moves hrow rfl hd rfl hadm).trans (.of_same rfl rfl fun _ => rfl)

theorem repairRuns_keepsCounts : ∀ {l : List AgentRun} {db db' : Db},
    repairRuns current now resolver db l = .ok db' → KeepsCounts s db db'
  | [], db, _, h => by
    cases h
    exact .refl s db
  | run :: rest, db, db', h => by
    obtain ⟨⟨db₁, b⟩, hturn, hrest⟩ := bind_ok.mp h
    have hlater : KeepsCounts s db₁ db' := repairRuns_keepsCounts hrest
    rcases repairRun_repairs (updates_keepsCounts run) db₁ b hturn with ⟨_, hdb⟩ | ⟨_, hone⟩
    · rwa [hdb] at hlater
    · exact hone.trans hlater

theorem repairDeadLetters_keepsCounts : ∀ {l : List RuntimeOutboxEvent} {db db' : Db},
    repairDeadLetters current db l = .ok db' → KeepsCounts s db db'
  | [], db, _, h => by
    cases h
    exact .refl s db
  | event :: rest, db, db', h => by
    obtain ⟨db₁, hone, hrest⟩ := bind_ok.mp h
    refine KeepsCounts.trans ?_ (repairDeadLetters_keepsCounts hrest)
    unfold repairDeadLetter at hone
    split at hone
    · cases hone
      exact .refl s db
    next run hfind =>
      split at hone
      · obtain ⟨⟨db₂, b⟩, hterm, hone⟩ := bind_ok.mp hone
        cases hone
        rcases terminate_repairs db run _ _ _ _ hterm with ⟨_, hdb⟩ | ⟨_, hend⟩
        · rw [hdb]
          exact .refl s db
        · exact keepsCounts_of_terminates hend
      · cases hone
        exact .refl s db

/-- The reaper logs its moves as well. -/
theorem reapOne_log {selected : AgentRun} {b : Bool}
    (h : LeaseService.reapOne db now selected = .ok (db', b)) :
    ∃ moves, db'.admissionLog = db.admissionLog ++ moves := by
  unfold LeaseService.reapOne at h
  split at h
  · cases h
    exact ⟨[], (List.append_nil _).symm⟩
  · split at h
    · split at h
      · obtain ⟨db₁, hadm, h⟩ := bind_ok.mp h
        cases h
        obtain ⟨_, rfl, _⟩ := transitionRun_ok hadm
        exact ⟨_, rfl⟩
      · obtain ⟨db₁, hadm, h⟩ := bind_ok.mp h
        obtain ⟨db₂, hcb, h⟩ := bind_ok.mp h
        cases h
        obtain ⟨_, _, hev⟩ := appendCallback_ok hcb
        obtain ⟨_, _, rfl⟩ := appendCallbackEvent_ok hev
        obtain ⟨_, rfl, _⟩ := transitionRun_ok hadm
        exact ⟨_, rfl⟩
    · cases h
      exact ⟨[], (List.append_nil _).symm⟩

theorem reapAll_log : ∀ {l : List AgentRun} {db db' : Db} {ids : List String},
    LeaseService.reapAll now db l = .ok (db', ids) →
      ∃ moves, db'.admissionLog = db.admissionLog ++ moves
  | [], _, _, _, h => by
    cases h
    exact ⟨[], (List.append_nil _).symm⟩
  | r :: rest, db, db', _, h => by
    obtain ⟨⟨db₁, b⟩, hone, h⟩ := bind_ok.mp h
    obtain ⟨⟨db₂, others⟩, hrest, h⟩ := bind_ok.mp h
    cases h
    obtain ⟨moves₁, h₁⟩ := reapOne_log hone
    obtain ⟨moves₂, h₂⟩ := reapAll_log hrest
    exact ⟨moves₁ ++ moves₂, by rw [h₂, h₁, List.append_assoc]⟩

/-- The repair has made every stored bucket count the runs of its scope. -/
def RepairComplete (db : Db) (now : Time) : Prop :=
  ∀ db₁ ids, LeaseService.reapExpired db now = .ok (db₁, ids) →
    ∀ b ∈ db.buckets.rows, CountsRuns (reconcileAdmissionBuckets db.buckets db₁) b.scope

/-- **A pass of the reconciler**: the bucket repair is complete exactly when
every stored bucket survives it; then every stored bucket counts the runs of its
scope when the pass is through, and, where no release of the pass clips at zero,
only then. -/
theorem bucket_repair_complete (h : runOnce db current now resolver = .ok db') :
    (RepairComplete db now ↔ ∀ b ∈ db.buckets.rows, Survives db now b) ∧
    ((∀ b ∈ db.buckets.rows, Survives db now b) →
      ∀ b ∈ db.buckets.rows, CountsRuns db' b.scope) ∧
    (∀ moves, db'.admissionLog = db.admissionLog ++ moves →
      (∀ m ∈ moves, m.clipped = false) → (∀ b ∈ db.buckets.rows, CountsRuns db' b.scope) →
        ∀ b ∈ db.buckets.rows, Survives db now b) := by
  obtain ⟨⟨db₁, ids⟩, hreap, h⟩ := bind_ok.mp h
  obtain ⟨db₃, hruns, h⟩ := bind_ok.mp h
  obtain ⟨db₄, hdead, h⟩ := bind_ok.mp h
  cases h
  let db₂ := reconcileAdmissionBuckets db.buckets db₁
  have hrepaired : ∀ b ∈ db.buckets.rows, CountsRuns db₂ b.scope ↔ Survives db now b :=
    fun b hb => bucket_repaired_iff hreap hb
  have hrest : ∀ s, KeepsCounts s db₂ db₄ := fun s =>
    (repairRuns_keepsCounts hruns).trans (repairDeadLetters_keepsCounts hdead)
  refine ⟨⟨fun hall b hb => ?_, fun hall db₁' ids' hreap' b hb => ?_⟩, fun hall b hb => ?_,
    fun moves hlog hclip hfinal b hb => ?_⟩
  · exact (hrepaired b hb).mp (hall db₁ ids hreap b hb)
  · cases hreap.symm.trans hreap'
    exact (hrepaired b hb).mpr (hall b hb)
  · exact (hrest b.scope).right ((hrepaired b hb).mpr (hall b hb))
  · refine (hrepaired b hb).mp ?_
    obtain ⟨moves₁, hlog₁⟩ := reapAll_log hreap
    obtain ⟨moves₂, hlog₂, hback⟩ := (hrest b.scope).wrong
    have hsplit : moves = moves₁ ++ moves₂ := by
      have hlog₂' : db₄.admissionLog = db₁.admissionLog ++ moves₂ := hlog₂
      have hall : db₄.admissionLog = db.admissionLog ++ (moves₁ ++ moves₂) := by
        rw [hlog₂', hlog₁, List.append_assoc]
      exact List.append_cancel_left (hlog.symm.trans hall)
    refine hback (fun m hm => hclip m ?_) (hfinal b hb)
    rw [hsplit]
    exact List.mem_append_right _ hm

/-- The lease of the claimed run has expired, and the buckets are right. -/
theorem bucket_repair_claimed :
    ∃ db', runOnce (reach {} claimedRun).db (seconds 100) (seconds 100) none = .ok db' ∧
      ∀ b ∈ (reach {} claimedRun).db.buckets.rows, CountsRuns db' b.scope := by
  obtain ⟨db', h⟩ :
      ∃ db', runOnce (reach {} claimedRun).db (seconds 100) (seconds 100) none = .ok db' :=
    ⟨_, rfl⟩
  have hright : ∀ b ∈ (reach {} claimedRun).db.buckets.rows,
      b.heldCount = expectedCount (reach {} claimedRun).db.runs.rows b.scope .held ∧
      b.queuedCount = expectedCount (reach {} claimedRun).db.runs.rows b.scope .queued ∧
      b.runningCount = expectedCount (reach {} claimedRun).db.runs.rows b.scope .claimed := by
    decide +kernel
  refine ⟨db', h, (bucket_repair_complete h).2.1 fun b hb => Or.inr (Or.inl ?_)⟩
  obtain ⟨hheld, hqueued, hrunning⟩ := hright b hb
  exact ⟨hheld, hqueued, by rw [hrunning]⟩

/-- The global bucket has counted a held run too many. -/
def drifted : BucketTable :=
  ⟨[{ scope := .global, heldCount := 1, runningCount := 1 },
    { scope := .caller "caller", runningCount := 1 },
    { scope := .tenant "tenant", runningCount := 1 },
    { scope := .agent "memoir", runningCount := 1 }], by decide⟩

/-- The pass puts the expired run back into the queue and leaves the drifted
bucket as it was: the held run is still counted, and the queued one still as
running. -/
theorem drifted_bucket_undone :
    ∃ db', runOnce { (reach {} claimedRun).db with buckets := drifted } (seconds 100) (seconds 100)
        none = .ok db' ∧
      (db'.runs.find? "run-1").map (·.dispatchState) = some .queued ∧
      db'.buckets.find? .global = some { scope := .global, heldCount := 1, runningCount := 1 } ∧
      ¬ ∀ b ∈ drifted.rows, CountsRuns db' b.scope := by
  refine ⟨_, rfl, rfl, rfl, fun hall => ?_⟩
  have hglobal := hall { scope := .global, heldCount := 1, runningCount := 1 }
    (List.mem_cons_self) .held (by decide)
  exact absurd hglobal (by decide +kernel)

end Rest

end ReconciliationService

end AgentRuntime
