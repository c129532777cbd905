import AgentRuntime.Lib.Slots
import AgentRuntime.CallbackStream

/-!
# What a rejected transition leaves behind

`AdmissionService.transition_run` changes the buckets of the session one
after the other and raises at the first that is full, so the buckets before
it have moved by then, and the full one has given up the old slot.
`walkScopes` is the loop with the buckets it leaves in the session; nothing
of them is stored, since nobody commits after the exception.

`LeaseService.reap_expired` calls it for every expired run and lets the
exception through, so one run whose queue is full keeps all the others of the
batch from being recovered (`reaped`).
-/

namespace AgentRuntime

open Keyed

/-! ## The buckets of the session -/

/-- The loop of `transition_run` over the scopes: the buckets it leaves in the
session, and what it raised. -/
def walkScopes (limits : AdmissionLimits) (old : Option DispatchState) (new : DispatchState) :
    BucketTable → List Scope → BucketTable × Option ServiceError
  | buckets, [] => (buckets, none)
  | buckets, s :: rest =>
    let released := releaseSlot (bucketOf buckets s) old
    match takeSlot limits released new with
    -- the bucket is added to the session and its old slot given up before the limit is looked at
    | .error e => (buckets.upsert released, some e)
    | .ok taken =>
      walkScopes limits old new (buckets.upsert { taken with version := taken.version + 1 }) rest

/-- With the transaction rolled back on an exception, that is `moveScopes`. -/
theorem moveScopes_eq_walkScopes (limits : AdmissionLimits) (old : Option DispatchState)
    (new : DispatchState) : ∀ (scopes : List Scope) (buckets : BucketTable),
    moveScopes limits old new buckets scopes =
      match walkScopes limits old new buckets scopes with
      | (buckets', none) => .ok buckets'
      | (_, some e) => .error e
  | [], _ => rfl
  | s :: rest, buckets => by
    unfold moveScopes walkScopes bucketMove
    dsimp only
    cases h : takeSlot limits (releaseSlot (bucketOf buckets s) old) new with
    | error e => rfl
    | ok taken =>
      exact moveScopes_eq_walkScopes limits old new rest
        (buckets.upsert { taken with version := taken.version + 1 })

/-- The bucket has no slot for the new state once the old one is given up. -/
def FullFor (limits : AdmissionLimits) (old : Option DispatchState) (new : DispatchState)
    (b : AdmissionBucket) : Prop :=
  ∃ n ∈ limits.limit new, n ≤ (releaseSlot b old).count new

/-- The bucket holds a slot of the old state. -/
def Occupied (old : Option DispatchState) (b : AdmissionBucket) : Prop :=
  ∃ d ∈ old, 0 < b.count d

theorem takeSlot_error {limits : AdmissionLimits} {b : AdmissionBucket} {new : DispatchState} :
    (∃ e, takeSlot limits b new = .error e) ↔ ∃ n ∈ limits.limit new, n ≤ b.count new := by
  unfold takeSlot
  cases h : limits.limit new with
  | none => simp
  | some n =>
    by_cases hfull : b.count new ≥ n
    · simp only [if_pos hfull, Option.mem_def, Option.some.injEq, exists_eq_left']
      exact ⟨fun _ => hfull, fun _ => ⟨_, rfl⟩⟩
    · simp only [if_neg hfull, Option.mem_def, Option.some.injEq, exists_eq_left']
      exact ⟨fun ⟨_, he⟩ => (nomatch he), fun hle => absurd hle hfull⟩

theorem bucketMove_error {limits : AdmissionLimits} {old : Option DispatchState}
    {new : DispatchState} {b : AdmissionBucket} :
    (∃ e, bucketMove limits old new b = .error e) ↔ FullFor limits old new b := by
  unfold FullFor
  rw [← takeSlot_error]
  unfold bucketMove
  cases takeSlot limits (releaseSlot b old) new with
  | error e => exact ⟨fun _ => ⟨e, rfl⟩, fun _ => ⟨e, rfl⟩⟩
  | ok taken => exact ⟨fun ⟨_, h⟩ => (nomatch h), fun ⟨_, h⟩ => (nomatch h)⟩

/-- The counters of a bucket. -/
def SameCounts (b b' : AdmissionBucket) : Prop :=
  ∀ k, b'.count k = b.count k

/-- `transition_run` has changed no counter of the run's scopes if it raised. -/
def LeavesCounts (limits : AdmissionLimits) (buckets : BucketTable) (run : AgentRun)
    (old : Option DispatchState) (new : DispatchState) : Prop :=
  (walkScopes limits old new buckets run.scopes).2 ≠ none →
    ∀ s ∈ run.scopes, SameCounts (bucketOf buckets s)
      (bucketOf (walkScopes limits old new buckets run.scopes).1 s)

variable {limits : AdmissionLimits} {old : Option DispatchState} {new : DispatchState}

theorem sameCounts_releaseSlot {b : AdmissionBucket} :
    SameCounts b (releaseSlot b old) ↔ ¬ Occupied old b := by
  constructor
  · rintro hsame ⟨d, hd, hpos⟩
    have hne : d ≠ .finished := by
      rintro rfl
      exact absurd hpos (Nat.lt_irrefl 0)
    have hcount := hsame d
    rw [count_releaseSlot b old hne, if_pos (Option.mem_def.mp hd)] at hcount
    omega
  · intro hfree k
    by_cases hk : k = .finished
    · subst hk
      rfl
    · rw [count_releaseSlot b old hk]
      split
      next hold =>
        have hzero : b.count k = 0 :=
          Nat.eq_zero_of_not_pos fun hpos => hfree ⟨k, hold, hpos⟩
        rw [hzero]
      · rfl

/-- A bucket that has moved within its limit has the counters it had only where
the old state is the new one. -/
theorem counts_of_moved {b b' : AdmissionBucket} (hnew : new ≠ .finished)
    (h : bucketMove limits old new b = .ok b') (hsame : SameCounts b b') :
    old = some new ∧ 0 < b.count new := by
  have hcount := (bucketMove_ok h).2.1 new hnew
  rw [hsame new, moved, if_pos rfl] at hcount
  by_cases hold : old = some new
  · rw [if_pos hold] at hcount
    exact ⟨hold, by omega⟩
  · rw [if_neg hold] at hcount
    omega

theorem bucketOf_walkScopes_of_not_mem : ∀ {scopes : List Scope} {buckets : BucketTable}
    {s : Scope}, s ∉ scopes →
      bucketOf (walkScopes limits old new buckets scopes).1 s = bucketOf buckets s
  | [], _, _, _ => rfl
  | t :: rest, buckets, s, h => by
    have hst : s ≠ t := fun he => h (he ▸ List.mem_cons_self)
    have hrest : s ∉ rest := fun hs => h (List.mem_cons_of_mem t hs)
    unfold walkScopes
    dsimp only
    cases htake : takeSlot limits (releaseSlot (bucketOf buckets t) old) new with
    | error e =>
      dsimp only
      rw [bucketOf_upsert, scope_releaseSlot, bucketOf_scope, if_neg hst]
    | ok taken =>
      have hscope : taken.scope = t :=
        (takeSlot_ok htake).1.trans ((scope_releaseSlot _ old).trans (bucketOf_scope buckets t))
      dsimp only
      rw [bucketOf_walkScopes_of_not_mem hrest, bucketOf_upsert, if_neg]
      exact fun he => hst (he.trans hscope)

/-- What the loop leaves in the session when it raises: the buckets before the
one that is full have moved, that one has lost its old slot. -/
theorem walkScopes_rejected : ∀ {scopes : List Scope} {buckets : BucketTable}, scopes.Nodup →
    (walkScopes limits old new buckets scopes).2 ≠ none →
    ∃ before t after, scopes = before ++ t :: after ∧ FullFor limits old new (bucketOf buckets t) ∧
      bucketOf (walkScopes limits old new buckets scopes).1 t
        = releaseSlot (bucketOf buckets t) old ∧
      (∀ s ∈ before, bucketMove limits old new (bucketOf buckets s)
        = .ok (bucketOf (walkScopes limits old new buckets scopes).1 s)) ∧
      ∀ s ∈ after, bucketOf (walkScopes limits old new buckets scopes).1 s = bucketOf buckets s
  | [], _, _, h => absurd rfl h
  | t :: rest, buckets, hnd, h => by
    obtain ⟨hnot, hnd'⟩ := List.nodup_cons.mp hnd
    unfold walkScopes at h ⊢
    dsimp only at h ⊢
    cases htake : takeSlot limits (releaseSlot (bucketOf buckets t) old) new with
    | error e =>
      have hfull : FullFor limits old new (bucketOf buckets t) := takeSlot_error.mp ⟨e, htake⟩
      dsimp only
      refine ⟨[], t, rest, rfl, hfull, ?_, fun s hs => absurd hs List.not_mem_nil, fun s hs => ?_⟩
      · rw [bucketOf_upsert, scope_releaseSlot, bucketOf_scope, if_pos rfl]
      · rw [bucketOf_upsert, scope_releaseSlot, bucketOf_scope, if_neg]
        exact fun he => hnot (he ▸ hs)
    | ok taken =>
      rw [htake] at h
      dsimp only at h ⊢
      have hmove : bucketMove limits old new (bucketOf buckets t)
          = .ok { taken with version := taken.version + 1 } := by
        unfold bucketMove
        rw [htake]
        rfl
      have hscope : taken.scope = t := (bucketMove_ok hmove).1.trans (bucketOf_scope buckets t)
      have hother : ∀ s, s ≠ t → bucketOf (buckets.upsert { taken with version := taken.version + 1 }) s
          = bucketOf buckets s := fun s hs => by
        rw [bucketOf_upsert, if_neg]
        exact fun he => hs (he.trans hscope)
      obtain ⟨before, u, after, rfl, hfull, hlost, hmoved, hkept⟩ := walkScopes_rejected hnd' h
      have hne : ∀ s ∈ before ++ u :: after, s ≠ t := fun s hs he => hnot (he ▸ hs)
      have hu : u ∈ before ++ u :: after := List.mem_append_right _ List.mem_cons_self
      rw [hother u (hne u hu)] at hfull hlost
      refine ⟨t :: before, u, after, rfl, hfull, hlost, fun s hs => ?_, fun s hs => ?_⟩
      · rcases List.mem_cons.mp hs with rfl | hs
        · rw [bucketOf_walkScopes_of_not_mem hnot, bucketOf_upsert, if_pos hscope.symm]
          exact hmove
        · rw [← hother s (hne s (List.mem_append_left _ hs))]
          exact hmoved s hs
      · rw [← hother s (hne s (List.mem_append_right _ (List.mem_cons_of_mem u hs)))]
        exact hkept s hs

theorem walkScopes_raises (limits : AdmissionLimits) (old : Option DispatchState)
    (new : DispatchState) (buckets : BucketTable) {scopes : List Scope} (hnd : scopes.Nodup) :
    (walkScopes limits old new buckets scopes).2 ≠ none ↔
      ∃ s ∈ scopes, FullFor limits old new (bucketOf buckets s) := by
  constructor
  · intro h
    obtain ⟨before, t, after, rfl, hfull, _⟩ := walkScopes_rejected hnd h
    exact ⟨t, List.mem_append_right _ List.mem_cons_self, hfull⟩
  · rintro ⟨s, hs, hfull⟩ hnone
    have hok : moveScopes limits old new buckets scopes
        = .ok (walkScopes limits old new buckets scopes).1 := by
      rw [moveScopes_eq_walkScopes]
      cases h : walkScopes limits old new buckets scopes with
      | mk buckets' raised =>
        rw [h] at hnone
        cases hnone
        rfl
    obtain ⟨e, he⟩ := bucketMove_error.mpr hfull
    cases he.symm.trans ((moveScopes_ok hnd hok s).2 hs)

/-- The counters survive a rejection exactly when it is the global bucket that
is full, and it had nothing to give up. -/
theorem leavesCounts_iff (limits : AdmissionLimits) (buckets : BucketTable) (run : AgentRun)
    (old : Option DispatchState) (new : DispatchState) :
    LeavesCounts limits buckets run old new ↔
      (∀ s ∈ run.scopes, ¬ FullFor limits old new (bucketOf buckets s)) ∨
      (FullFor limits old new (bucketOf buckets .global) ∧
        ¬ Occupied old (bucketOf buckets .global)) := by
  have hraises := walkScopes_raises limits old new buckets run.scopes_nodup
  by_cases hrejects : (walkScopes limits old new buckets run.scopes).2 ≠ none
  · obtain ⟨before, t, after, hscopes, hfull, hlost, hmoved, hkept⟩ :=
      walkScopes_rejected run.scopes_nodup hrejects
    have hmem : t ∈ run.scopes := by
      rw [hscopes]
      exact List.mem_append_right _ List.mem_cons_self
    have hnotall : ¬ ∀ s ∈ run.scopes, ¬ FullFor limits old new (bucketOf buckets s) :=
      fun h => h t hmem hfull
    cases before with
    | nil =>
      -- the global bucket is the full one, and the others were not reached
      obtain ⟨rfl, hrest⟩ := List.cons.inj hscopes
      constructor
      · intro h
        have hsame := h hrejects .global hmem
        rw [hlost] at hsame
        exact Or.inr ⟨hfull, sameCounts_releaseSlot.mp hsame⟩
      · rintro (h | ⟨_, hfree⟩) _ s hs
        · exact absurd h hnotall
        · rw [hscopes] at hs
          rcases List.mem_cons.mp hs with rfl | hs
          · rw [hlost]
            exact sameCounts_releaseSlot.mpr hfree
          · rw [hkept s hs]
            exact fun _ => rfl
    | cons g before =>
      -- the global bucket has moved, so only a transition into the same state could leave its
      -- counters as they were, and then the full bucket has lost a slot
      obtain ⟨rfl, hrest⟩ := List.cons.inj hscopes
      have hglobal := hmoved .global List.mem_cons_self
      obtain ⟨n, hn, hle⟩ := hfull
      have hnew : new ≠ .finished := by
        rintro rfl
        cases hn
      have hroom : ¬ FullFor limits old new (bucketOf buckets .global) := fun h => by
        obtain ⟨e, he⟩ := bucketMove_error.mpr h
        cases he.symm.trans hglobal
      refine ⟨fun h => ?_, fun h => h.elim (absurd · hnotall) fun h => absurd h.1 hroom⟩
      obtain ⟨hold, hpos⟩ := counts_of_moved hnew hglobal
        (h hrejects .global (by rw [hscopes]; exact List.mem_cons_self))
      have hlostCount := h hrejects t hmem new
      rw [hlost, count_releaseSlot _ _ hnew, if_pos hold] at hlostCount
      rw [count_releaseSlot _ _ hnew, if_pos hold] at hle
      refine absurd ⟨n, hn, ?_⟩ hroom
      rw [count_releaseSlot _ _ hnew, if_pos hold]
      omega
  · refine ⟨fun _ => Or.inl fun s hs hfull => hrejects (hraises.mpr ⟨s, hs, hfull⟩), fun _ h =>
      absurd h hrejects⟩

/-! ## The reaper -/

theorem transitionRun_isOk {limits : AdmissionLimits} (db : Db) (run : AgentRun)
    (old : Option DispatchState) (new : DispatchState)
    (h : ∀ s ∈ run.scopes, ¬ FullFor limits old new (bucketOf db.buckets s)) :
    ∃ db', transitionRun limits db run old new = .ok db' := by
  have hraises := walkScopes_raises limits old new db.buckets run.scopes_nodup
  have hnone : (walkScopes limits old new db.buckets run.scopes).2 = none :=
    Classical.not_not.mp fun hsome => by
      obtain ⟨s, hs, hfull⟩ := hraises.mp hsome
      exact h s hs hfull
  unfold transitionRun
  rw [moveScopes_eq_walkScopes]
  cases hw : walkScopes limits old new db.buckets run.scopes with
  | mk buckets raised =>
    rw [hw] at hnone
    cases hnone
    exact ⟨_, rfl⟩

theorem transitionRun_frame {db db' : Db} {run : AgentRun}
    (h : transitionRun limits db run old new = .ok db') :
    db'.runs = db.runs ∧ db'.callbackEvents = db.callbackEvents ∧
      db'.definitions = db.definitions := by
  obtain ⟨buckets, rfl, _⟩ := transitionRun_ok h
  exact ⟨rfl, rfl, rfl⟩

theorem transitionRun_rejects {limits : AdmissionLimits} (db : Db) (run : AgentRun)
    (old : Option DispatchState) (new : DispatchState) {s : Scope} (hs : s ∈ run.scopes)
    (h : FullFor limits old new (bucketOf db.buckets s)) :
    ∃ e, transitionRun limits db run old new = .error e := by
  cases hrun : transitionRun limits db run old new with
  | error e => exact ⟨e, rfl⟩
  | ok db' =>
    obtain ⟨buckets, _, hmoved⟩ := transitionRun_ok hrun
    obtain ⟨e, he⟩ := bucketMove_error.mpr h
    cases he.symm.trans ((hmoved s).2 hs)

namespace LeaseService

/-- The runs queued in a scope, as its bucket counts them. -/
def queuedIn (db : Db) (s : Scope) : Nat := (bucketOf db.buckets s).queuedCount

/-- The limit on them that the reaper works with. -/
def queueLimit (_ : Scope) : Nat := ({} : AdmissionLimits).maxQueued

/-- What `reap_expired` selects. -/
def expired (db : Db) (now : Time) : List AgentRun :=
  db.runs.rows.filter (fun run => decide (run.dispatchState = .claimed ∧ run.LeaseExpired now))

/-- Of these, the runs it puts back into the queue; the package of the others
is revoked, and they are cancelled. -/
def recoverable (db : Db) (now : Time) : List AgentRun :=
  (expired db now).filter (fun run => packageExecutable db run)

/-- What a call of `reap_expired` leaves stored: nothing when an exception
comes out of it. -/
def reaped (db : Db) (now : Time) : Db :=
  match reapExpired db now with
  | .ok (db', _) => db'.commit
  | .error _ => db

/-- The run is back in the queue. -/
def Requeued (db : Db) (run : AgentRun) : Prop :=
  ∃ r, db.runs.find? run.runId = some r ∧ r.dispatchState = .queued

/-- Every expired run is recovered that finds room in its own scopes when its
turn comes, those before it in the batch that found room being queued by then. -/
def RecoversWithRoom (db : Db) (now : Time) : Prop :=
  ∀ before run after, recoverable db now = before ++ run :: after →
    Slots.Room AgentRun.scopes queueLimit
      (Slots.serveEach AgentRun.scopes queueLimit (queuedIn db) before) run →
    Requeued (reaped db now) run

/-- What the reaper needs of the rows it has still to visit. -/
structure Reapable (now : Time) (db : Db) (selected : List AgentRun) : Prop where
  rows : ∀ r ∈ selected, db.runs.find? r.runId = some r
  claimed : ∀ r ∈ selected, r.dispatchState = .claimed
  lapsed : ∀ r ∈ selected, r.LeaseExpired now
  ids : (selected.map (·.runId)).Nodup
  numbers : ∀ r ∈ selected, db.callbackEvents.find? (r.runId, r.lastEventSeq + 1) = none

/-- A bucket rejects a run that is put back exactly when its queue is full. -/
theorem fullFor_reap (db : Db) (s : Scope) :
    FullFor {} (some .claimed) .queued (bucketOf db.buckets s) ↔ queueLimit s ≤ queuedIn db s := by
  unfold FullFor
  rw [count_releaseSlot _ _ (by decide), if_neg (by decide)]
  exact ⟨fun ⟨n, hn, hle⟩ => by cases hn; exact hle, fun hle => ⟨_, rfl, hle⟩⟩

theorem queuedIn_transitionRun {db db' : Db} {run : AgentRun}
    (h : transitionRun limits db run old new = .ok db') (s : Scope) :
    queuedIn db' s = if s ∈ run.scopes then moved old new .queued (queuedIn db s)
      else queuedIn db s := by
  obtain ⟨buckets, rfl, hmoved⟩ := transitionRun_ok h
  by_cases hs : s ∈ run.scopes
  · rw [if_pos hs]
    exact (bucketMove_ok ((hmoved s).2 hs)).2.1 .queued (by decide)
  · rw [if_neg hs]
    show (bucketOf buckets s).queuedCount = _
    rw [(hmoved s).1 hs]
    rfl

variable {db : Db} {now : Time} {r : AgentRun} {rest : List AgentRun}

/-- The row that the reaper visits is the one it has selected. -/
theorem reapOne_eq (h : Reapable now db (r :: rest)) :
    reapOne db now r =
      (if packageExecutable db r then do
        let db' ← transitionRun {} { db with runs := db.runs.put (r.reap now) } (r.reap now)
          (some .claimed) .queued
        pure (appendRunDispatch db' r.runId "lease_reaped", true)
      else do
        let run' := r.endWith now .cancelled (some "PACKAGE_REVOKED")
        let db₁ ← transitionRun {} { db with runs := db.runs.put run' } run'
          (some .claimed) .finished
        let db₂ ← appendCallback db₁ run' .cancelled
        pure (db₂, false)) := by
  unfold reapOne
  rw [h.rows r List.mem_cons_self]
  exact if_pos ⟨rfl, h.claimed r List.mem_cons_self, h.lapsed r List.mem_cons_self⟩

/-- The rest of the batch is as it was where only the visited run has been
written. -/
theorem Reapable.tail (h : Reapable now db (r :: rest)) {db' : Db}
    (hruns : ∀ q, q ≠ r.runId → db'.runs.find? q = db.runs.find? q)
    (hevents : ∀ q n, q ≠ r.runId → db'.callbackEvents.find? (q, n) = db.callbackEvents.find? (q, n)) :
    Reapable now db' rest := by
  have hne : ∀ p ∈ rest, p.runId ≠ r.runId := fun p hp he =>
    (List.nodup_cons.mp h.ids).1 (List.mem_map.mpr ⟨p, hp, he⟩)
  refine ⟨fun p hp => ?_, fun p hp => h.claimed p (List.mem_cons_of_mem r hp),
    fun p hp => h.lapsed p (List.mem_cons_of_mem r hp), (List.nodup_cons.mp h.ids).2, fun p hp => ?_⟩
  · rw [hruns _ (hne p hp)]
    exact h.rows p (List.mem_cons_of_mem r hp)
  · rw [hevents _ _ (hne p hp)]
    exact h.numbers p (List.mem_cons_of_mem r hp)

theorem reapOne_full (h : Reapable now db (r :: rest)) (hx : packageExecutable db r = true)
    (hfull : ¬ Slots.Room AgentRun.scopes queueLimit (queuedIn db) r) :
    ∃ e, reapOne db now r = .error e := by
  obtain ⟨s, hs, hle⟩ : ∃ s ∈ r.scopes, queueLimit s ≤ queuedIn db s := by
    unfold Slots.Room at hfull
    push Not at hfull
    exact hfull
  obtain ⟨e, he⟩ := transitionRun_rejects { db with runs := db.runs.put (r.reap now) }
    (r.reap now) (some .claimed) .queued hs ((fullFor_reap db s).mpr hle)
  rw [reapOne_eq h, if_pos hx, he]
  exact ⟨e, rfl⟩

theorem reapOne_room (h : Reapable now db (r :: rest)) (hx : packageExecutable db r = true)
    (hroom : Slots.Room AgentRun.scopes queueLimit (queuedIn db) r) :
    ∃ db', reapOne db now r = .ok (db', true) ∧ db'.runs = db.runs.put (r.reap now) ∧
      db'.callbackEvents = db.callbackEvents ∧ db'.definitions = db.definitions ∧
      queuedIn db' = Slots.occupy AgentRun.scopes (queuedIn db) r := by
  obtain ⟨db₁, hmoved⟩ := transitionRun_isOk { db with runs := db.runs.put (r.reap now) }
    (r.reap now) (some .claimed) .queued fun s hs hfull =>
      absurd (hroom s hs) (Nat.not_lt.mpr ((fullFor_reap db s).mp hfull))
  have hqueued := queuedIn_transitionRun hmoved
  obtain ⟨buckets, rfl, _⟩ := transitionRun_ok hmoved
  rw [reapOne_eq h, if_pos hx, hmoved]
  refine ⟨_, rfl, rfl, rfl, rfl, funext fun s => ?_⟩
  exact (hqueued s).trans rfl

theorem reapOne_revoked (h : Reapable now db (r :: rest)) (hx : packageExecutable db r = false) :
    ∃ db', reapOne db now r = .ok (db', false) ∧
      (∀ q, q ≠ r.runId → db'.runs.find? q = db.runs.find? q) ∧
      (∀ q n, q ≠ r.runId → db'.callbackEvents.find? (q, n) = db.callbackEvents.find? (q, n)) ∧
      db'.definitions = db.definitions ∧ queuedIn db' = queuedIn db := by
  let run' := r.endWith now .cancelled (some "PACKAGE_REVOKED")
  obtain ⟨db₁, hmoved⟩ := @transitionRun_isOk {} { db with runs := db.runs.put run' } run'
    (some .claimed) .finished fun s _ ⟨n, hn, _⟩ => by cases hn
  obtain ⟨hruns, hcallbacks, hdefs⟩ := transitionRun_frame hmoved
  obtain ⟨events, hevents⟩ := Table.exists_insert? (t := db.callbackEvents)
    (a := callbackOf run' "run_cancelled") (h.numbers r List.mem_cons_self)
  obtain ⟨db₂, hcallback, hruns₂, hevents₂, hdefs₂, hbuckets₂⟩ :
      ∃ db₂, appendCallback db₁ run' .cancelled = .ok db₂ ∧
        db₂.runs = db₁.runs.put run'.nextEvent ∧ db₂.callbackEvents = events ∧
        db₂.definitions = db₁.definitions ∧ db₂.buckets = db₁.buckets := by
    have hdone : appendCallback db₁ run' .cancelled = .ok { db₁ with
        runs := db₁.runs.put run'.nextEvent
        callbackEvents := events
        outboxNew := db₁.outboxNew ++ [callbackDelivery run' "run_cancelled"] } := by
      show appendCallbackEvent db₁ run' "run_cancelled" = _
      unfold appendCallbackEvent
      rw [hcallbacks, hevents]
      rfl
    exact ⟨_, hdone, rfl, rfl, rfl, rfl⟩
  refine ⟨db₂, ?_, fun q hq => ?_, fun q n hq => ?_, hdefs₂.trans hdefs, funext fun s => ?_⟩
  · rw [reapOne_eq h, if_neg (by rw [hx]; exact Bool.false_ne_true)]
    exact bind_ok.mpr ⟨db₁, hmoved, bind_ok.mpr ⟨db₂, hcallback, rfl⟩⟩
  · rw [hruns₂, hruns]
    exact (Table.find?_put_ne (show q ≠ run'.nextEvent.runId from hq)).trans
      (Table.find?_put_ne (show q ≠ run'.runId from hq))
  · rw [hevents₂, Table.find?_insert? hevents, if_neg]
    exact fun he => hq (Prod.mk.inj he).1
  · unfold queuedIn
    rw [hbuckets₂]
    refine (queuedIn_transitionRun hmoved s).trans ?_
    split <;> rfl

theorem executable_congr {db db' : Db} (h : db'.definitions = db.definitions) (run : AgentRun) :
    packageExecutable db' run = packageExecutable db run := by
  unfold packageExecutable Db.definition?
  rw [h]

theorem reapAll_error_head {e : ServiceError} (h : reapOne db now r = .error e) :
    reapAll now db (r :: rest) = .error e := by
  unfold reapAll
  rw [h]
  rfl

theorem reapAll_error_tail {db₁ : Db} {b : Bool} {e : ServiceError}
    (hone : reapOne db now r = .ok (db₁, b)) (h : reapAll now db₁ rest = .error e) :
    reapAll now db (r :: rest) = .error e := by
  unfold reapAll
  rw [hone]
  show (reapAll now db₁ rest >>= _) = _
  rw [h]
  rfl

theorem reapAll_cons_ok {db₁ db₂ : Db} {b : Bool} {ids : List String}
    (hone : reapOne db now r = .ok (db₁, b)) (h : reapAll now db₁ rest = .ok (db₂, ids)) :
    ∃ ids', reapAll now db (r :: rest) = .ok (db₂, ids') :=
  ⟨_, bind_ok.mpr ⟨_, hone, bind_ok.mpr ⟨_, h, rfl⟩⟩⟩

/-- What the reaper makes of a batch: the recoverable runs are all put back, or
one of them finds a scope full and the call fails. -/
theorem reapAll_cases (db₀ : Db) : ∀ {selected : List AgentRun} {db : Db},
    Reapable now db selected → db.definitions = db₀.definitions →
    ((∃ db' ids, reapAll now db selected = .ok (db', ids) ∧
        (∀ q, q ∉ selected.map (·.runId) → db'.runs.find? q = db.runs.find? q) ∧
        ∀ run ∈ selected.filter (fun run => packageExecutable db₀ run), Requeued db' run) ∧
      Slots.AllServed AgentRun.scopes queueLimit (queuedIn db)
        (selected.filter (fun run => packageExecutable db₀ run))) ∨
    ((∃ e, reapAll now db selected = .error e) ∧
      ¬ Slots.AllServed AgentRun.scopes queueLimit (queuedIn db)
        (selected.filter (fun run => packageExecutable db₀ run)))
  | [], db, _, _ => by
    refine Or.inl ⟨⟨db, [], rfl, fun _ _ => rfl, fun run hrun => absurd hrun ?_⟩, trivial⟩
    exact List.not_mem_nil
  | r :: rest, db, h, hdefs => by
    have hsplit : ∀ q, q ∉ (r :: rest).map (·.runId) → q ≠ r.runId ∧ q ∉ rest.map (·.runId) :=
      fun q hq => not_or.mp (mt List.mem_cons.mpr hq)
    have hid : r.runId ∉ rest.map (·.runId) := (List.nodup_cons.mp h.ids).1
    cases hx : packageExecutable db r with
    | false =>
      obtain ⟨db₁, hone, hruns, hevents, hdefs₁, hqueued⟩ := reapOne_revoked h hx
      rw [executable_congr hdefs] at hx
      rw [List.filter_cons_of_neg (by rw [hx]; exact Bool.false_ne_true), ← hqueued]
      rcases reapAll_cases db₀ (h.tail hruns hevents) (hdefs₁.trans hdefs) with
        ⟨⟨db', ids, hall, hkept, hback⟩, hserved⟩ | ⟨⟨e, he⟩, hnot⟩
      · obtain ⟨ids', hok⟩ := reapAll_cons_ok hone hall
        refine Or.inl ⟨⟨db', ids', hok, fun q hq => ?_, hback⟩, hserved⟩
        exact (hkept q (hsplit q hq).2).trans (hruns q (hsplit q hq).1)
      · exact Or.inr ⟨⟨e, reapAll_error_tail hone he⟩, hnot⟩
    | true =>
      have hx₀ := hx
      rw [executable_congr hdefs] at hx₀
      rw [List.filter_cons_of_pos hx₀]
      unfold Slots.AllServed
      by_cases hroom : Slots.Room AgentRun.scopes queueLimit (queuedIn db) r
      · obtain ⟨db₁, hone, hruns, hevents, hdefs₁, hqueued⟩ := reapOne_room h hx hroom
        have hother : ∀ q, q ≠ r.runId → db₁.runs.find? q = db.runs.find? q := fun q hq => by
          rw [hruns]
          exact Table.find?_put_ne (show q ≠ (r.reap now).runId from hq)
        have htail := h.tail hother fun q n _ => by rw [hevents]
        rw [← hqueued]
        rcases reapAll_cases db₀ htail (hdefs₁.trans hdefs) with
          ⟨⟨db', ids, hall, hkept, hback⟩, hserved⟩ | ⟨⟨e, he⟩, hnot⟩
        · obtain ⟨ids', hok⟩ := reapAll_cons_ok hone hall
          refine Or.inl ⟨⟨db', ids', hok, fun q hq => ?_, fun run hrun => ?_⟩, hroom, hserved⟩
          · exact (hkept q (hsplit q hq).2).trans (hother q (hsplit q hq).1)
          · rcases List.mem_cons.mp hrun with rfl | hrun
            · refine ⟨run.reap now, ?_, rfl⟩
              rw [hkept _ hid, hruns]
              exact Table.find?_put_self (show db.runs.find? (run.reap now).runId = some run from
                h.rows run List.mem_cons_self)
            · exact hback run hrun
        · exact Or.inr ⟨⟨e, reapAll_error_tail hone he⟩, fun hall => hnot hall.2⟩
      · obtain ⟨e, he⟩ := reapOne_full h hx hroom
        exact Or.inr ⟨⟨e, reapAll_error_head he⟩, fun hall => hroom hall.1⟩

/-! ## Recovery of a batch -/

/-- No queue is asked for more slots than it has left. -/
def QueuesFit (db : Db) (now : Time) : Prop :=
  ∀ run ∈ recoverable db now, ∀ s ∈ run.scopes,
    queuedIn db s + Slots.demand AgentRun.scopes (recoverable db now) s ≤ queueLimit s

/-- Every recoverable run has a scope whose queue is full. -/
def AllFull (db : Db) (now : Time) : Prop :=
  ∀ run ∈ recoverable db now, ∃ s ∈ run.scopes, queueLimit s ≤ queuedIn db s

/-- The next callback of every run has a number of its own. -/
def NextCallbackFree (db : Db) : Prop :=
  ∀ run ∈ db.runs.rows, db.callbackEvents.find? (run.runId, run.lastEventSeq + 1) = none

theorem reapable_expired (hfree : NextCallbackFree db) (now : Time) :
    Reapable now db (expired db now) := by
  have hsel : ∀ r ∈ expired db now, r ∈ db.runs.rows ∧ r.dispatchState = .claimed ∧
      r.LeaseExpired now := fun r hr =>
    ⟨(List.mem_filter.mp hr).1, of_decide_eq_true (List.mem_filter.mp hr).2⟩
  refine ⟨fun r hr => Table.find?_of_mem (hsel r hr).1, fun r hr => (hsel r hr).2.1,
    fun r hr => (hsel r hr).2.2, ?_, fun r hr => hfree r (hsel r hr).1⟩
  exact db.runs.nodup.sublist (List.filter_sublist.map _)

theorem recoversWithRoom_iff (hfree : NextCallbackFree db) (now : Time) :
    RecoversWithRoom db now ↔ QueuesFit db now ∨ AllFull db now := by
  have hfull : ∀ run, ¬ Slots.Room AgentRun.scopes queueLimit (queuedIn db) run ↔
      ∃ s ∈ run.scopes, queueLimit s ≤ queuedIn db s := fun run => by
    unfold Slots.Room
    push Not
    exact Iff.rfl
  have hallFull : AllFull db now ↔ ∀ before run after, recoverable db now = before ++ run :: after →
      ¬ Slots.Room AgentRun.scopes queueLimit
        (Slots.serveEach AgentRun.scopes queueLimit (queuedIn db) before) run := by
    rw [Slots.turn_full_iff]
    exact forall₂_congr fun run _ => (hfull run).symm
  rcases reapAll_cases db (reapable_expired hfree now) rfl with
    ⟨⟨db', ids, hall, _, hback⟩, hserved⟩ | ⟨⟨e, he⟩, hnot⟩
  · have hreaped : reaped db now = db'.commit := by
      unfold reaped reapExpired
      rw [show reapAll now db (db.runs.rows.filter _) = _ from hall]
    refine iff_of_true (fun before run after heq _ => ?_) (Or.inl (Slots.allServed_iff.mp hserved))
    rw [hreaped]
    exact hback run (by
      show run ∈ recoverable db now
      rw [heq]
      exact List.mem_append_right _ List.mem_cons_self)
  · have hreaped : reaped db now = db := by
      unfold reaped reapExpired
      rw [show reapAll now db (db.runs.rows.filter _) = _ from he]
    have hnotfit : ¬ QueuesFit db now := fun hfit => hnot (Slots.allServed_iff.mpr hfit)
    rw [or_iff_right hnotfit, hallFull]
    refine forall₃_congr fun before run after => forall_congr' fun heq => ?_
    -- nothing is stored, so no expired run is back in the queue
    have hclaimed : ¬ Requeued (reaped db now) run := by
      rintro ⟨r, hr, hq⟩
      have hmem : run ∈ recoverable db now := by
        rw [heq]
        exact List.mem_append_right _ List.mem_cons_self
      have hsel := List.mem_filter.mp (List.mem_filter.mp hmem).1
      rw [hreaped, Table.find?_of_mem hsel.1] at hr
      cases hr
      have hstate := (of_decide_eq_true hsel.2).1
      rw [hq] at hstate
      cases hstate
    exact imp_iff_not hclaimed

/-- In every state a run of the system can reach, whatever its buckets, the
next callback has a number of its own. -/
theorem nextCallbackFree_reach (limits : AdmissionLimits) (es : List Event) (buckets : BucketTable) :
    NextCallbackFree { (reach limits es).db with buckets := buckets } := by
  intro run hrun
  have hinv : StreamsInv (reach limits es) :=
    Runs.run_inv (streamsInv_step limits) es {} streamsInv_init
  have hstream := hinv run.runId
  rw [Table.find?_of_mem hrun] at hstream
  refine Table.find?_eq_none.mpr fun e he hkey => ?_
  obtain ⟨hid, hseq⟩ := Prod.mk.inj hkey
  have hmem : e.eventSeq ∈ (eventsOf (reach limits es).db run.runId).map (·.eventSeq) :=
    List.mem_map_of_mem (List.mem_filter.mpr ⟨he, decide_eq_true hid⟩)
  rw [hstream.numbered, List.mem_range'_1] at hmem
  omega

/-- A rejected transition has left the counters of the session alone exactly
when the global bucket was full and had nothing to give up; and the expired
runs that find room are recovered, next to others that do not, exactly when the
queues have room for all of them or for none. -/
theorem rejection_spares_others (limits : AdmissionLimits) (buckets : BucketTable)
    (run : AgentRun) (old : Option DispatchState) (new : DispatchState) (es : List Event)
    (now : Time) :
    (LeavesCounts limits buckets run old new ↔
      (∀ s ∈ run.scopes, ¬ FullFor limits old new (bucketOf buckets s)) ∨
      (FullFor limits old new (bucketOf buckets .global) ∧
        ¬ Occupied old (bucketOf buckets .global))) ∧
    (RecoversWithRoom { (reach limits es).db with buckets := buckets } now ↔
      QueuesFit { (reach limits es).db with buckets := buckets } now ∨
      AllFull { (reach limits es).db with buckets := buckets } now) :=
  ⟨leavesCounts_iff limits buckets run old new,
    recoversWithRoom_iff (nextCallbackFree_reach limits es buckets) now⟩

/-- Two runs of one tenant are claimed, and their workers are gone. -/
def bothClaimed : List Event :=
  [after 0 (.register [samplePackage]),
   after 0 (.create "run-1" (sampleCommand .auto) "caller" "tenant" 1),
   after 0 (.create "run-2" (sampleCommand .auto) "caller" "tenant" 1),
   after 0 (.claim "run-1" "worker-1" 90),
   after 0 (.claim "run-2" "worker-2" 90)]

/-- With both of them running, `queued` others are in the queue. -/
def queueHolds (queued : Nat) : BucketTable :=
  ⟨[{ scope := .global, queuedCount := queued, runningCount := 2 },
    { scope := .caller "caller", queuedCount := queued, runningCount := 2 },
    { scope := .tenant "tenant", queuedCount := queued, runningCount := 2 },
    { scope := .agent "memoir", queuedCount := queued, runningCount := 2 }], by simp⟩

/-- With the queue full, the rejected reaping of a run has taken it off the
running ones. With one slot left, two expired runs leave neither of them
recovered, though the first has room. -/
theorem rejection_keeps_others :
    ¬ LeavesCounts {} (queueHolds 500)
        { runId := "run-1", agentId := "memoir", agentVersion := "1.0.0", packageDigest := "sha256:1",
          callerId := "caller", tenantId := "tenant" } (some .claimed) .queued ∧
    ¬ RecoversWithRoom { (reach {} bothClaimed).db with buckets := queueHolds 499 } (seconds 100) := by
  constructor
  · intro h
    have hsame := h (by decide) .global (by decide) .claimed
    exact absurd hsame (by decide)
  · intro h
    obtain ⟨run, rest, heq, hid, hroom⟩ : ∃ run rest,
        recoverable { (reach {} bothClaimed).db with buckets := queueHolds 499 } (seconds 100)
          = run :: rest ∧ run.runId = "run-1" ∧
        Slots.Room AgentRun.scopes queueLimit
          (queuedIn { (reach {} bothClaimed).db with buckets := queueHolds 499 }) run :=
      ⟨_, _, rfl, rfl, by decide +kernel⟩
    obtain ⟨r, hr, hq⟩ := h [] run rest heq hroom
    have hclaimed : ((reaped { (reach {} bothClaimed).db with buckets := queueHolds 499 }
        (seconds 100)).runs.find? "run-1").map (·.dispatchState) = some .claimed := by
      decide +kernel
    rw [hid] at hr
    rw [hr, Option.map_some, hq] at hclaimed
    cases hclaimed

end LeaseService

end AgentRuntime
