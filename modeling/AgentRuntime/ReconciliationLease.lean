import AgentRuntime.Model
import AgentRuntime.Lib.Interleave

/-!
# The reconciler's lease

One row serialises the reconcilers. `acquire` is not one statement: a
conditional UPDATE takes over a lease that is over, and where that changes
nothing an INSERT creates the row, or fails on one that another owner has
created meanwhile and tries the UPDATE once more. Every statement below runs
alone; between two of them any other call may run (`Statement`).

The row has one owner and one token, so at most one pair can renew; its token
grows with every acquisition, so a holder that was followed by another owner
neither renews nor releases.

What an acquisition hands to its caller is another matter. The first UPDATE
reads its token back in its own transaction. The other two branches commit
first and read afterwards, and by then the row may be somebody else's: two
successful calls can report one token (`token_handed_twice`). `ReadsOwn`
says of a step that this does not happen; along such runs everything the
lease is for holds (`reconciliation_lease`).
-/

namespace AgentRuntime

open Interleave Runs

/-- The row of the lease. -/
structure RuntimeReconciliationLease where
  ownerId : String
  expiresAt : Time
  fencingToken : Nat
  deriving DecidableEq, Repr

namespace ReconciliationLeaseService

/-! ## Statements -/

/-- The conditional UPDATE of `acquire`: take over a lease that is over.
`none` when it changes no row. -/
def takeover (lease? : Option RuntimeReconciliationLease) (ownerId : String)
    (current expiresAt : Time) : Option RuntimeReconciliationLease :=
  match lease? with
  | none => none
  | some lease =>
    if lease.expiresAt ≤ current then
      some {
        ownerId := ownerId
        expiresAt := expiresAt
        fencingToken := lease.fencingToken + 1 }
    else none

/-- The conditional UPDATE of `renew`. -/
def renew (lease? : Option RuntimeReconciliationLease) (ownerId : String) (fencingToken : Nat)
    (current expiresAt : Time) : Option RuntimeReconciliationLease :=
  match lease? with
  | none => none
  | some lease =>
    if lease.ownerId = ownerId ∧ lease.fencingToken = fencingToken ∧ current < lease.expiresAt then
      some { lease with expiresAt := expiresAt }
    else none

/-- The conditional UPDATE of `release`. -/
def release (lease? : Option RuntimeReconciliationLease) (ownerId : String) (fencingToken : Nat)
    (current : Time) : Option RuntimeReconciliationLease :=
  match lease? with
  | none => none
  | some lease =>
    if lease.ownerId = ownerId ∧ lease.fencingToken = fencingToken then
      some { lease with expiresAt := current }
    else none

/-! ## Calls -/

inductive Request
  | acquire (ownerId : String)
  | renew (ownerId : String) (fencingToken : Nat)
  | release (ownerId : String) (fencingToken : Nat)
  deriving DecidableEq, Repr

/-- The next statement of a call. A call that has acquired carries the place
of its acquisition until it has read its token. -/
inductive Statement
  | takeover
  | insert
  | takeoverAfterConflict
  | readToken (place : Nat)
  | renew
  | release
  | done (result : Bool)
  deriving DecidableEq, Repr

/-- A call: what it was asked, and what it captured when it entered. -/
structure Call where
  request : Request
  current : Time
  ttl : Time
  next : Statement
  deriving DecidableEq, Repr

def Call.expiresAt (call : Call) : Time := call.current + call.ttl

def Call.answer (call : Call) (result : Bool) : Call := { call with next := .done result }

def Call.goto (call : Call) (next : Statement) : Call := { call with next := next }

/-- An acquisition, at its commit: the owner and token it wrote. -/
structure Grant where
  ownerId : String
  fencingToken : Nat
  deriving DecidableEq, Repr

/-- The row and the clock; `grants` are the acquisitions in the order of
their commits, and `handed` the tokens they reported, each with the place of
its acquisition. -/
structure Shared where
  lease? : Option RuntimeReconciliationLease := none
  clock : Time := 0
  grants : List Grant := []
  handed : List (Nat × Nat) := []

/-- The row after an acquisition. -/
def Shared.grant (s : Shared) (lease : RuntimeReconciliationLease) : Shared :=
  { s with
    lease? := some lease
    grants := s.grants ++ [⟨lease.ownerId, lease.fencingToken⟩] }

/-- The acquisition at `place` reports `token`. -/
def Shared.hand (s : Shared) (place token : Nat) : Shared :=
  { s with handed := s.handed ++ [(place, token)] }

def Shared.write (s : Shared) (lease : RuntimeReconciliationLease) : Shared :=
  { s with lease? := some lease }

/-- Enter a call; a service without a positive ttl cannot be built. -/
def enter (s : Shared) (a : Request × Nat) : Option Call :=
  if a.2 = 0 then none
  else some {
    request := a.1
    current := s.clock
    ttl := seconds a.2
    next := match a.1 with
      | .acquire _ => .takeover
      | .renew .. => .renew
      | .release .. => .release }

/-- Run the next statement of a call. -/
def exec (s : Shared) (call : Call) : Shared × Call :=
  match call.request, call.next with
  | .acquire ownerId, .takeover =>
    match takeover s.lease? ownerId call.current call.expiresAt with
    -- the token is read back before the commit
    | some lease =>
      ((s.grant lease).hand s.grants.length lease.fencingToken, call.answer true)
    | none => (s, call.goto .insert)
  | .acquire ownerId, .insert =>
    match s.lease? with
    | none => (s.grant ⟨ownerId, call.expiresAt, 1⟩, call.goto (.readToken s.grants.length))
    | some _ => (s, call.goto .takeoverAfterConflict)
  | .acquire ownerId, .takeoverAfterConflict =>
    match takeover s.lease? ownerId call.current call.expiresAt with
    | some lease => (s.grant lease, call.goto (.readToken s.grants.length))
    | none => (s, call.answer false)
  | .acquire _, .readToken place =>
    match s.lease? with
    | some lease => (s.hand place lease.fencingToken, call.answer true)
    | none => (s, call.answer false)
  | .renew ownerId fencingToken, .renew =>
    match renew s.lease? ownerId fencingToken call.current call.expiresAt with
    | some lease => (s.write lease, call.answer true)
    | none => (s, call.answer false)
  | .release ownerId fencingToken, .release =>
    match release s.lease? ownerId fencingToken call.current with
    | some lease => (s.write lease, call.answer true)
    | none => (s, call.answer false)
  | _, _ => (s, call)

/-- Any number of instances acquire, renew and release. -/
def program : Program Shared Call (Request × Nat) where
  wait s t := { s with clock := s.clock + t }
  call := enter
  exec := exec

/-- The state after the events of `es`. -/
def reachLease (es : List (Interleave.Event (Request × Nat))) : World Shared Call :=
  Runs.run program.step ⟨{}, []⟩ es

/-! ## What the statements do -/

theorem takeover_ok {lease? : Option RuntimeReconciliationLease} {ownerId : String}
    {current expiresAt : Time} {lease' : RuntimeReconciliationLease}
    (h : takeover lease? ownerId current expiresAt = some lease') :
    ∃ lease, lease? = some lease ∧ lease' = ⟨ownerId, expiresAt, lease.fencingToken + 1⟩ := by
  unfold takeover at h
  split at h
  · cases h
  next lease =>
    split at h
    · cases h
      exact ⟨lease, rfl, rfl⟩
    · cases h

/-- Who can renew is the owner of the row, by its token. -/
theorem renew_ok {lease? : Option RuntimeReconciliationLease} {ownerId : String}
    {fencingToken : Nat} {current expiresAt : Time} {lease' : RuntimeReconciliationLease}
    (h : renew lease? ownerId fencingToken current expiresAt = some lease') :
    ∃ lease, lease? = some lease ∧ lease.ownerId = ownerId ∧ lease.fencingToken = fencingToken ∧
      lease' = { lease with expiresAt := expiresAt } := by
  unfold renew at h
  split at h
  · cases h
  next lease =>
    split at h
    next hw =>
      cases h
      exact ⟨lease, rfl, hw.1, hw.2.1, rfl⟩
    · cases h

theorem release_ok {lease? : Option RuntimeReconciliationLease} {ownerId : String}
    {fencingToken : Nat} {current : Time} {lease' : RuntimeReconciliationLease}
    (h : release lease? ownerId fencingToken current = some lease') :
    ∃ lease, lease? = some lease ∧ lease.ownerId = ownerId ∧ lease.fencingToken = fencingToken ∧
      lease' = { lease with expiresAt := current } := by
  unfold release at h
  split at h
  · cases h
  next lease =>
    split at h
    next hw =>
      cases h
      exact ⟨lease, rfl, hw.1, hw.2, rfl⟩
    · cases h

/-! ## The invariant -/

/-- The row belongs to the latest grant, and tokens grow from grant to
grant. -/
structure LeaseInv (s : Shared) : Prop where
  row : ∀ lease, s.lease? = some lease →
    s.grants.getLast? = some ⟨lease.ownerId, lease.fencingToken⟩
  bounded : ∀ g ∈ s.grants, ∃ lease, s.lease? = some lease ∧ g.fencingToken ≤ lease.fencingToken
  increasing : s.grants.Pairwise (fun g g' => g.fencingToken < g'.fencingToken)

/-- Every token reported is the one its acquisition wrote. -/
def HandsOwn (s : Shared) : Prop :=
  ∀ place token, (place, token) ∈ s.handed → ∃ g, s.grants[place]? = some g ∧
    g.fencingToken = token

/-- A grant of a token above all others keeps the invariant. -/
theorem LeaseInv.grant {s : Shared} (h : LeaseInv s) (lease : RuntimeReconciliationLease)
    (hnew : ∀ g ∈ s.grants, g.fencingToken < lease.fencingToken) : LeaseInv (s.grant lease) := by
  refine ⟨?_, ?_, ?_⟩
  · intro l hl
    cases hl
    exact List.getLast?_concat
  · intro g hg
    refine ⟨lease, rfl, ?_⟩
    rcases List.mem_append.mp hg with hold | hlast
    · exact Nat.le_of_lt (hnew g hold)
    · cases List.mem_singleton.mp hlast
      exact Nat.le_refl _
  · refine List.pairwise_append.mpr ⟨h.increasing, List.pairwise_singleton _ _, ?_⟩
    intro g hg g' hg'
    rw [List.mem_singleton.mp hg']
    exact hnew g hg

/-- A takeover grants the token after the one in the row. -/
theorem LeaseInv.takeover {s : Shared} (h : LeaseInv s) {ownerId : String}
    {current expiresAt : Time} {lease : RuntimeReconciliationLease}
    (ht : ReconciliationLeaseService.takeover s.lease? ownerId current expiresAt = some lease) :
    LeaseInv (s.grant lease) := by
  obtain ⟨old, hold, rfl⟩ := takeover_ok ht
  refine h.grant _ (fun g hg => ?_)
  obtain ⟨l, hl, hle⟩ := h.bounded g hg
  rw [hold] at hl
  cases hl
  show g.fencingToken < old.fencingToken + 1
  omega

/-- The first row grants token 1: before it there was no grant. -/
theorem LeaseInv.insert {s : Shared} (h : LeaseInv s) (hnone : s.lease? = none)
    (lease : RuntimeReconciliationLease) : LeaseInv (s.grant lease) := by
  refine h.grant lease (fun g hg => ?_)
  obtain ⟨l, hl, _⟩ := h.bounded g hg
  rw [hnone] at hl
  cases hl

/-- A write that keeps owner and token keeps the invariant. -/
theorem LeaseInv.write {s : Shared} (h : LeaseInv s) {old lease : RuntimeReconciliationLease}
    (hold : s.lease? = some old) (howner : lease.ownerId = old.ownerId)
    (htoken : lease.fencingToken = old.fencingToken) : LeaseInv (s.write lease) := by
  refine ⟨?_, ?_, h.increasing⟩
  · intro l hl
    cases hl
    rw [howner, htoken]
    exact h.row old hold
  · intro g hg
    obtain ⟨l, hl, hle⟩ := h.bounded g hg
    rw [hold] at hl
    cases hl
    exact ⟨lease, rfl, by rw [htoken]; exact hle⟩

theorem HandsOwn.grant {s : Shared} (h : HandsOwn s) (lease : RuntimeReconciliationLease) :
    HandsOwn (s.grant lease) := by
  intro place token hmem
  obtain ⟨g, hg, htoken⟩ := h place token hmem
  have hlt : place < s.grants.length := (List.getElem?_eq_some_iff.mp hg).1
  exact ⟨g, (List.getElem?_append_left hlt).trans hg, htoken⟩

theorem HandsOwn.hand {s : Shared} (h : HandsOwn s) {place token : Nat} {g : Grant}
    (hg : s.grants[place]? = some g) (htoken : g.fencingToken = token) :
    HandsOwn (s.hand place token) := by
  intro place' token' hmem
  rcases List.mem_append.mp hmem with hold | hlast
  · exact h place' token' hold
  · cases List.mem_singleton.mp hlast
    exact ⟨g, hg, htoken⟩

/-! ## Every statement keeps it -/

/-- A call that reads its token back reads it while its acquisition is still
the latest. -/
def ReadsOwn (s : Shared) (call : Call) : Prop :=
  ∀ place, call.next = .readToken place → place + 1 = s.grants.length

instance (s : Shared) (call : Call) : Decidable (ReadsOwn s call) :=
  match h : call.next with
  | .readToken place =>
    decidable_of_iff (place + 1 = s.grants.length)
      ⟨fun hp q hq => by rw [h] at hq; cases hq; exact hp, fun hp => hp place h⟩
  | .takeover | .insert | .takeoverAfterConflict | .renew | .release | .done _ =>
    isTrue fun q hq => by rw [h] at hq; cases hq

theorem exec_inv {s : Shared} {call : Call} (hi : LeaseInv s) (hh : HandsOwn s)
    (hown : ReadsOwn s call) : LeaseInv (exec s call).1 ∧ HandsOwn (exec s call).1 := by
  unfold exec
  split
  · split
    next lease ht =>
      have hplace : (s.grant lease).grants[s.grants.length]?
          = some ⟨lease.ownerId, lease.fencingToken⟩ := List.getElem?_concat_length
      have hi' := hi.takeover ht
      exact ⟨⟨hi'.row, hi'.bounded, hi'.increasing⟩, (hh.grant lease).hand hplace rfl⟩
    · exact ⟨hi, hh⟩
  · split
    next hnone => exact ⟨hi.insert hnone _, hh.grant _⟩
    · exact ⟨hi, hh⟩
  · split
    next lease ht => exact ⟨hi.takeover ht, hh.grant lease⟩
    · exact ⟨hi, hh⟩
  next place _ hnext =>
    split
    next lease hlease =>
      -- the latest grant is the one whose token stands in the row
      have hlast := hi.row lease hlease
      rw [List.getLast?_eq_getElem?, ← hown place hnext, Nat.add_sub_cancel] at hlast
      exact ⟨⟨hi.row, hi.bounded, hi.increasing⟩, hh.hand hlast rfl⟩
    · exact ⟨hi, hh⟩
  · split
    next lease hr =>
      obtain ⟨old, hold, _, _, rfl⟩ := renew_ok hr
      exact ⟨hi.write hold rfl rfl, hh⟩
    · exact ⟨hi, hh⟩
  · split
    next lease hr =>
      obtain ⟨old, hold, _, _, rfl⟩ := release_ok hr
      exact ⟨hi.write hold rfl rfl, hh⟩
    · exact ⟨hi, hh⟩
  · exact ⟨hi, hh⟩

/-- The outline: the calls assert nothing of their own. -/
theorem lease_outline :
    Outline program ReadsOwn (fun s => LeaseInv s ∧ HandsOwn s) (fun _ _ => True) where
  wait _ _ h := ⟨⟨h.1.row, h.1.bounded, h.1.increasing⟩, h.2⟩
  waits _ _ _ h := h
  call _ _ _ _ _ := trivial
  exec _ _ h _ hP := ⟨exec_inv h.1 h.2 hP, trivial⟩
  spares _ _ _ _ _ _ h := h

/-! ## What the lease is for -/

/-- At most one pair can renew; tokens reported grow from acquisition to
acquisition; and whoever was followed by another acquisition neither renews
nor releases. -/
structure MutualExclusion (s : Shared) : Prop where
  exclusive : ∀ ownerId token current until_ ownerId' token' current' until',
    renew s.lease? ownerId token current until_ ≠ none →
    renew s.lease? ownerId' token' current' until' ≠ none → ownerId = ownerId' ∧ token = token'
  increasing : ∀ place token place' token', (place, token) ∈ s.handed →
    (place', token') ∈ s.handed → place < place' → token < token'
  stale : ∀ place token place' g g', (place, token) ∈ s.handed → place < place' →
    s.grants[place]? = some g → s.grants[place']? = some g' →
    ∀ current until_, renew s.lease? g.ownerId token current until_ = none ∧
      release s.lease? g.ownerId token current = none

theorem LeaseInv.token_lt {s : Shared} (h : LeaseInv s) {place place' : Nat} {g g' : Grant}
    (hlt : place < place') (hg : s.grants[place]? = some g) (hg' : s.grants[place']? = some g') :
    g.fencingToken < g'.fencingToken := by
  obtain ⟨hp, rfl⟩ := List.getElem?_eq_some_iff.mp hg
  obtain ⟨hp', rfl⟩ := List.getElem?_eq_some_iff.mp hg'
  exact List.pairwise_iff_getElem.mp h.increasing place place' hp hp' hlt

theorem mutualExclusion_of_inv {s : Shared} (hi : LeaseInv s) (hh : HandsOwn s) :
    MutualExclusion s := by
  refine ⟨?_, ?_, ?_⟩
  · intro ownerId token current until_ ownerId' token' current' until' h h'
    obtain ⟨_, hr⟩ := Option.ne_none_iff_exists'.mp h
    obtain ⟨_, hr'⟩ := Option.ne_none_iff_exists'.mp h'
    obtain ⟨lease, hl, ho, ht, _⟩ := renew_ok hr
    obtain ⟨lease', hl', ho', ht', _⟩ := renew_ok hr'
    rw [hl] at hl'
    cases hl'
    exact ⟨ho.symm.trans ho', ht.symm.trans ht'⟩
  · intro place token place' token' h h' hlt
    obtain ⟨g, hg, rfl⟩ := hh place token h
    obtain ⟨g', hg', rfl⟩ := hh place' token' h'
    exact hi.token_lt hlt hg hg'
  · intro place token place' g g' h hlt hg hg' current until_
    obtain ⟨_, hg₁, htoken⟩ := hh place token h
    rw [hg] at hg₁
    cases hg₁
    have hmem : g' ∈ s.grants := List.mem_of_getElem? hg'
    obtain ⟨lease, hl, hle⟩ := hi.bounded g' hmem
    have hless := hi.token_lt hlt hg hg'
    -- the row carries the later token
    have hne : lease.fencingToken ≠ token := by omega
    constructor
    · by_contra hr
      obtain ⟨_, hr⟩ := Option.ne_none_iff_exists'.mp hr
      obtain ⟨lease', hl', _, ht, _⟩ := renew_ok hr
      rw [hl] at hl'
      cases hl'
      exact hne ht
    · by_contra hr
      obtain ⟨_, hr⟩ := Option.ne_none_iff_exists'.mp hr
      obtain ⟨lease', hl', _, ht, _⟩ := release_ok hr
      rw [hl] at hl'
      cases hl'
      exact hne ht

/-- **Mutual exclusion of the reconcilers** over every interleaving of the
statements of any number of calls in which each call that reads its token
back does so while its acquisition is the latest. -/
theorem reconciliation_lease (es : List (Interleave.Event (Request × Nat)))
    (h : Along program.step (program.Meets ReadsOwn) ⟨{}, []⟩ es) :
    MutualExclusion (reachLease es).shared := by
  have hinit : Asserted (fun s => LeaseInv s ∧ HandsOwn s) (fun _ _ => True)
      (⟨{}, []⟩ : World Shared Call) := by
    refine ⟨⟨⟨?_, ?_, List.Pairwise.nil⟩, ?_⟩, fun _ _ => trivial⟩
    · intro lease hl
      cases hl
    · intro g hg
      cases hg
    · intro place token hmem
      cases hmem
  have hrun := lease_outline.run es ⟨{}, []⟩ hinit h
  exact mutualExclusion_of_inv hrun.1.1 hrun.1.2

/-- An event `t` seconds after the one before. -/
def later (t : Nat) (move : Interleave.Move (Request × Nat)) : Interleave.Event (Request × Nat) :=
  ⟨seconds t, move⟩

/-- The first instance creates the row. -/
def created : List (Interleave.Event (Request × Nat)) :=
  [later 0 (.call (.acquire "instance-a", 10)), later 0 (.advance 0), later 0 (.advance 0)]

/-- Eleven seconds later the second takes it over. -/
def takenOver : List (Interleave.Event (Request × Nat)) :=
  [later 11 (.call (.acquire "instance-b", 10)), later 0 (.advance 1)]

theorem reconciliation_lease_taken_over :
    MutualExclusion (reachLease (created ++ [later 0 (.advance 0)] ++ takenOver)).shared := by
  exact reconciliation_lease _ (by decide)

/-- The first instance reads its token back only after the second took the
lease over, and reports the token of the second. -/
theorem token_handed_twice :
    ¬ ∀ es, MutualExclusion (reachLease es).shared := by
  intro hall
  have hlt := (hall (created ++ takenOver ++ [later 0 (.advance 0)])).increasing 0 2 1 2
    (by decide) (by decide) (by decide)
  exact absurd hlt (by decide)

end ReconciliationLeaseService

end AgentRuntime
