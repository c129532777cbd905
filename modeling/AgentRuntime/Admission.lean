import AgentRuntime.Model

/-!
# The admission ledger

`AdmissionService.transition_run`: a run that changes its dispatch state
gives up its slot in four buckets (global, caller, tenant, agent) and takes
one in the new state, unless a bucket is full. The buckets are visited in
that order and the first full one rejects the whole operation.

`bucketMove` is the change of one bucket, `moveScopes` the loop, and
`transitionRun_ok` what a successful transition leaves in every bucket.
-/

namespace AgentRuntime

open Keyed

/-- Capacity of every scope. -/
structure AdmissionLimits where
  maxHeld : Nat := 100
  maxQueued : Nat := 500
  maxRunning : Nat := 50
  deriving DecidableEq, Repr

namespace AdmissionBucket

/-- The counter a dispatch state is mapped to; `finished` has none. -/
def count (b : AdmissionBucket) : DispatchState → Nat
  | .held => b.heldCount
  | .queued => b.queuedCount
  | .claimed => b.runningCount
  | .finished => 0

def setCount (b : AdmissionBucket) (n : Nat) : DispatchState → AdmissionBucket
  | .held => { b with heldCount := n }
  | .queued => { b with queuedCount := n }
  | .claimed => { b with runningCount := n }
  | .finished => b

@[simp] theorem scope_setCount (b : AdmissionBucket) (n : Nat) (d : DispatchState) :
    (b.setCount n d).scope = b.scope := by
  cases d <;> rfl

theorem count_setCount (b : AdmissionBucket) (n : Nat) (d k : DispatchState) :
    (b.setCount n d).count k = if k = d ∧ d ≠ .finished then n else b.count k := by
  cases d <;> cases k <;> rfl

end AdmissionBucket

/-- The limit of a dispatch state; `finished` is not in the mapping. -/
def AdmissionLimits.limit (l : AdmissionLimits) : DispatchState → Option Nat
  | .held => some l.maxHeld
  | .queued => some l.maxQueued
  | .claimed => some l.maxRunning
  | .finished => none

/-- The scopes of a run, in the order they are updated. -/
def AgentRun.scopes (run : AgentRun) : List Scope :=
  [.global, .caller run.callerId, .tenant run.tenantId, .agent run.agentId]

/-- Release of the old slot: `max(0, count - 1)`. -/
def releaseSlot (b : AdmissionBucket) : Option DispatchState → AdmissionBucket
  | none => b
  | some d => b.setCount (b.count d - 1) d

/-- Taking the new slot, unless the bucket is full. -/
def takeSlot (limits : AdmissionLimits) (b : AdmissionBucket) (new : DispatchState) :
    Result AdmissionBucket :=
  match limits.limit new with
  | none => .ok b
  | some limit =>
    if b.count new ≥ limit then .error (.admissionRejected "RUNTIME_OVERLOADED")
    else .ok (b.setCount (b.count new + 1) new)

/-- One bucket's share of a transition. -/
def bucketMove (limits : AdmissionLimits) (old : Option DispatchState) (new : DispatchState)
    (b : AdmissionBucket) : Result AdmissionBucket := do
  let b ← takeSlot limits (releaseSlot b old) new
  pure { b with version := b.version + 1 }

/-- The bucket of a scope, created empty when it is missing. -/
def bucketOf (buckets : BucketTable) (s : Scope) : AdmissionBucket :=
  (buckets.find? s).getD { scope := s }

/-- The loop over the scopes. -/
def moveScopes (limits : AdmissionLimits) (old : Option DispatchState) (new : DispatchState) :
    BucketTable → List Scope → Result BucketTable
  | buckets, [] => .ok buckets
  | buckets, s :: rest => do
    let b ← bucketMove limits old new (bucketOf buckets s)
    moveScopes limits old new (buckets.upsert b) rest

/-- Whether the release at bucket `b` clips. -/
def clips (b : AdmissionBucket) : Option DispatchState → Bool
  | none => false
  | some .finished => false
  | some d => b.count d = 0

/-- `AdmissionService.transition_run`; `none` is the source state `"none"`
of a run that is being created. -/
def transitionRun (limits : AdmissionLimits) (db : Db) (run : AgentRun)
    (old : Option DispatchState) (new : DispatchState) : Result Db := do
  let clipped := run.scopes.any (fun s => clips (bucketOf db.buckets s) old)
  let buckets ← moveScopes limits old new db.buckets run.scopes
  let move := { runId := run.runId, source := old, target := new, clipped := clipped }
  pure { db with buckets := buckets, admissionLog := db.admissionLog ++ [move] }

/-! ## What a transition does to one bucket -/

/-- The counter of `k` after a slot moved from `old` to `new`. -/
def moved (old : Option DispatchState) (new k : DispatchState) (n : Nat) : Nat :=
  (if old = some k then n - 1 else n) + (if new = k then 1 else 0)

theorem scope_releaseSlot (b : AdmissionBucket) (old : Option DispatchState) :
    (releaseSlot b old).scope = b.scope := by
  cases old <;> simp [releaseSlot]

theorem count_releaseSlot (b : AdmissionBucket) (old : Option DispatchState)
    {k : DispatchState} (hk : k ≠ .finished) :
    (releaseSlot b old).count k = if old = some k then b.count k - 1 else b.count k := by
  cases old with
  | none => simp [releaseSlot]
  | some d =>
    by_cases hd : d = k
    · subst hd
      simp [releaseSlot, AdmissionBucket.count_setCount, hk]
    · have hkd : ¬ k = d := fun h => hd h.symm
      simp [releaseSlot, AdmissionBucket.count_setCount, hd, hkd]

theorem takeSlot_ok {limits : AdmissionLimits} {b b' : AdmissionBucket} {new : DispatchState}
    (h : takeSlot limits b new = .ok b') :
    b'.scope = b.scope ∧
    (∀ k, k ≠ .finished → b'.count k = b.count k + (if new = k then 1 else 0)) ∧
    (∀ n, limits.limit new = some n → b.count new < n) := by
  unfold takeSlot at h
  split at h
  next hnone =>
    cases h
    refine ⟨rfl, fun k hk => ?_, fun n hn => by simp [hnone] at hn⟩
    cases new <;> simp_all [AdmissionLimits.limit]
    exact fun h => hk h.symm
  next limit hlim =>
    split at h
    · cases h
    next hlt =>
      cases h
      refine ⟨by simp, fun k hk => ?_, fun n hn => ?_⟩
      · rw [AdmissionBucket.count_setCount]
        by_cases hnk : new = k
        · subst hnk
          simp [hk]
        · have hkn : ¬ k = new := fun h => hnk h.symm
          simp [hnk, hkn]
      · rw [hlim] at hn
        cases hn
        omega

/-- One bucket after a transition: every counter moved, and the counter of
the new state was below its limit once the old slot had been given up. -/
theorem bucketMove_ok {limits : AdmissionLimits} {b b' : AdmissionBucket}
    {old : Option DispatchState} {new : DispatchState}
    (h : bucketMove limits old new b = .ok b') :
    b'.scope = b.scope ∧
    (∀ k, k ≠ .finished → b'.count k = moved old new k (b.count k)) ∧
    (∀ n, limits.limit new = some n → b'.count new ≤ n) := by
  obtain ⟨c, hc, hb'⟩ := bind_ok.mp h
  obtain ⟨hscope, hcount, hlimit⟩ := takeSlot_ok hc
  cases hb'
  refine ⟨hscope.trans (scope_releaseSlot b old), fun k hk => ?_, fun n hn => ?_⟩
  · calc c.count k = (releaseSlot b old).count k + (if new = k then 1 else 0) := hcount k hk
      _ = moved old new k (b.count k) := by rw [count_releaseSlot b old hk]; rfl
  · have hnew : new ≠ .finished := by
      rintro rfl
      simp [AdmissionLimits.limit] at hn
    have h₁ : c.count new = (releaseSlot b old).count new + 1 := by
      simpa using hcount new hnew
    have h₂ := hlimit n hn
    show c.count new ≤ n
    omega

/-! ## The loop over the scopes -/

theorem bucketOf_scope (buckets : BucketTable) (s : Scope) :
    (bucketOf buckets s).scope = s := by
  unfold bucketOf
  rcases h : buckets.find? s with _ | b
  · rfl
  · exact Table.key_of_find? h

theorem bucketOf_upsert (buckets : BucketTable) (b : AdmissionBucket) (s : Scope) :
    bucketOf (buckets.upsert b) s = if s = b.scope then b else bucketOf buckets s := by
  unfold bucketOf
  rw [Table.find?_upsert]
  by_cases h : s = b.scope <;> simp [h]

/-- The loop moves the slot in every bucket it visits and leaves the others
alone. -/
theorem moveScopes_ok {limits : AdmissionLimits} {old : Option DispatchState}
    {new : DispatchState} :
    ∀ {scopes : List Scope} {buckets buckets' : BucketTable}, scopes.Nodup →
      moveScopes limits old new buckets scopes = .ok buckets' →
      ∀ s, (s ∉ scopes → bucketOf buckets' s = bucketOf buckets s) ∧
        (s ∈ scopes →
          bucketMove limits old new (bucketOf buckets s) = .ok (bucketOf buckets' s))
  | [], buckets, buckets', _, h, s => by
    cases h
    exact ⟨fun _ => rfl, fun hs => absurd hs (List.not_mem_nil)⟩
  | s₀ :: rest, buckets, buckets', hnd, h, s => by
    obtain ⟨b, hb, hrest⟩ := bind_ok.mp h
    obtain ⟨hs₀, hnd'⟩ := List.nodup_cons.mp hnd
    have hscope : b.scope = s₀ := (bucketMove_ok hb).1.trans (bucketOf_scope buckets s₀)
    have ih := moveScopes_ok hnd' hrest
    have hother : ∀ s, s ≠ s₀ → bucketOf (buckets.upsert b) s = bucketOf buckets s := by
      intro s hs
      rw [bucketOf_upsert, hscope, if_neg hs]
    constructor
    · intro hs
      rw [List.mem_cons, not_or] at hs
      rw [(ih s).1 hs.2, hother s hs.1]
    · intro hs
      rcases List.mem_cons.mp hs with rfl | hs'
      · rw [(ih s).1 hs₀, bucketOf_upsert, if_pos hscope.symm]
        exact hb
      · have hne : s ≠ s₀ := fun he => hs₀ (he ▸ hs')
        rw [← hother s hne]
        exact (ih s).2 hs'

theorem AgentRun.scopes_nodup (run : AgentRun) : run.scopes.Nodup := by
  simp [AgentRun.scopes]

/-- What a successful `transition_run` did: the buckets of the run's scopes
moved, within the limit of the new state, nothing else changed, and the log
says whether a release clipped. -/
theorem transitionRun_ok {limits : AdmissionLimits} {db db' : Db} {run : AgentRun}
    {old : Option DispatchState} {new : DispatchState}
    (h : transitionRun limits db run old new = .ok db') :
    ∃ buckets, db' = { db with
        buckets := buckets
        admissionLog := db.admissionLog ++ [{
          runId := run.runId, source := old, target := new
          clipped := run.scopes.any (fun s => clips (bucketOf db.buckets s) old) }] } ∧
      ∀ s, (s ∉ run.scopes → bucketOf buckets s = bucketOf db.buckets s) ∧
        (s ∈ run.scopes → bucketMove limits old new (bucketOf db.buckets s)
          = .ok (bucketOf buckets s)) := by
  obtain ⟨buckets, hb, hdb⟩ := bind_ok.mp h
  cases hdb
  exact ⟨buckets, rfl, moveScopes_ok run.scopes_nodup hb⟩

end AgentRuntime
