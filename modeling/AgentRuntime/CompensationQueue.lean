import AgentRuntime.CallbackReconciliation
import AgentRuntime.SourceDeletion
import AgentRuntime.Lib.Batches

/-!
# The queue of the compensation events

`MemoryDeletionCompensationService` sends what a deletion has registered to
the Runtime: `deliver_pending` the first pending events up to a limit,
`reconcile_purges` a query for every purge that has been delivered.

An event that fails stays pending where it is, so the passes work off a
queue in batches, and an event is delivered sooner or later exactly if fewer
failing ones than the limit are in front of it. A query that raises ends the
pass, so a purged run is confirmed exactly if no query in front of it does
(`compensation_reached_iff`).

Mirroring notes:
- The rows are in the order of their ids.
- A session of the service does not flush before a query: what
  `run_maintenance` has just delivered is not among the events it asks about.
- A pass is committed before the next one starts.
-/

namespace AgentRuntime

open Keyed

/-- What is sent for an event. -/
structure CompensationCall where
  action : String
  runId : String
  idempotencyKey : String
  deriving DecidableEq, Repr

namespace MemoryRuntimeCompensationEvent

def call (event : MemoryRuntimeCompensationEvent) : CompensationCall :=
  ⟨event.action, event.runId, event.idempotencyKey⟩

/-- The call went through. -/
def deliver (event : MemoryRuntimeCompensationEvent) (now : Time) :
    MemoryRuntimeCompensationEvent :=
  { event with delivered := true, deliveredAt := some now, lastErrorCode := none }

/-- The call failed; the event stays pending. -/
def fail (event : MemoryRuntimeCompensationEvent) : MemoryRuntimeCompensationEvent :=
  { event with
    attemptCount := event.attemptCount + 1
    lastErrorCode := some "MEMORY_RUNTIME_COMPENSATION_FAILED" }

end MemoryRuntimeCompensationEvent

/-- `MemoryDeletionRuntimeGateway`: whether a call goes through, and what a
query says; none where it raises. -/
structure MemoryDeletionRuntimeGateway where
  requestPrivatePurge : (runId idempotencyKey : String) → Bool
  cancelRun : (runId idempotencyKey : String) → Bool
  getPrivacyState : (runId : String) → Option (Option String)

namespace MemoryDeletionCompensationService

/-- Whether the call of an event goes through; without a gateway none does. -/
def accepts (gateway : Option MemoryDeletionRuntimeGateway) (call : CompensationCall) : Bool :=
  match gateway with
  | none => false
  | some gateway =>
    if call.action = "privacy_purge" then
      gateway.requestPrivatePurge call.runId call.idempotencyKey
    else gateway.cancelRun call.runId call.idempotencyKey

/-- `_has_lease`, at the `i`-th check of a loop. -/
def hasLease (leaseGuard : Option (Nat → Bool)) (i : Nat) : Bool :=
  match leaseGuard with
  | none => true
  | some holds => holds i

section

variable (gateway : Option MemoryDeletionRuntimeGateway) (leaseGuard : Option (Nat → Bool))

/-- The loop of `deliver_pending`, over all rows; `limit` of the pending ones
are selected. -/
def deliverRows (now : Time) : (limit i : Nat) → List MemoryRuntimeCompensationEvent →
    List MemoryRuntimeCompensationEvent × Nat
  | _, _, [] => ([], 0)
  | limit, i, event :: rest =>
    if event.delivered = true then
      let others := deliverRows now limit i rest
      (event :: others.1, others.2)
    else
      match limit with
      | 0 => (event :: rest, 0)
      | limit + 1 =>
        if hasLease leaseGuard i = false then (event :: rest, 0)
        else
          let others := deliverRows now limit (i + 1) rest
          if accepts gateway event.call = true then
            (event.deliver now :: others.1, others.2 + 1)
          else (event.fail :: others.1, others.2)

/-- `deliver_pending`. -/
def deliverPending (limit : Nat) (db : MemoirDb) (now : Time) : MemoirDb × Nat :=
  let rows := deliverRows gateway leaseGuard now limit 0 db.compensations
  ({ db with compensations := rows.1 }, rows.2)

/-- The query for a run; without a gateway none is made. -/
def privacyState (runId : String) : Option (Option String) :=
  match gateway with
  | none => some none
  | some gateway => gateway.getPrivacyState runId

/-- The loop of `reconcile_purges`: the tables it leaves, and how many purges
it has confirmed; none where a query raised. -/
def reconcileEvents (now : Time) : (i : Nat) → MemoirDb →
    List MemoryRuntimeCompensationEvent → MemoirDb × Option Nat
  | _, db, [] => (db, some 0)
  | i, db, event :: rest =>
    if hasLease leaseGuard i = false then (db, some 0)
    else
      match db.runRefs.find? event.runId with
      | none => reconcileEvents now (i + 1) db rest
      | some ref =>
        if ref.purgeState = "purged" then reconcileEvents now (i + 1) db rest
        else
          match privacyState gateway event.runId with
          | none => (db, none)
          | some answer =>
            if answer ≠ some "purged" then reconcileEvents now (i + 1) db rest
            else
              let others := reconcileEvents now (i + 1)
                { db with runRefs := db.runRefs.put (ref.confirmPurge now) } rest
              (others.1, others.2.map (· + 1))

/-- The purges that have been delivered. -/
def deliveredPurges (db : MemoirDb) : List MemoryRuntimeCompensationEvent :=
  db.compensations.filter fun e => decide (e.action = "privacy_purge") && e.delivered

/-- `reconcile_purges`; `stored` are the tables its selection sees. -/
def reconcilePurges (stored db : MemoirDb) (now : Time) : MemoirDb × Option Nat :=
  reconcileEvents gateway leaseGuard now 0 db (deliveredPurges stored)

end

/-! ## A round of maintenance -/

/-- The lease at every check of a round. -/
structure LeaseChecks where
  start : Bool := true
  delivery : Nat → Bool := fun _ => true
  delivered : Bool := true
  reconciliation : Nat → Bool := fun _ => true
  reconciled : Bool := true

structure MemoryDeletionMaintenanceReport where
  deliveredEvents : Nat := 0
  confirmedPurges : Nat := 0
  deletedRevisions : Nat := 0
  aborted : Bool := false
  deriving DecidableEq, Repr

/-- `run_maintenance`: the tables of the session, and the report; none where
a query raised. -/
def runMaintenance (gateway : Option MemoryDeletionRuntimeGateway) (lease : LeaseChecks)
    (db : MemoirDb) (now : Time) : MemoirDb × Option MemoryDeletionMaintenanceReport :=
  if lease.start = false then (db, some { aborted := true })
  else
    let (db₁, delivered) := deliverPending gateway (some lease.delivery) 20 db now
    if lease.delivered = false then
      (db₁, some { deliveredEvents := delivered, aborted := true })
    else
      match reconcilePurges gateway (some lease.reconciliation) db db₁ now with
      | (db₂, none) => (db₂, none)
      | (db₂, some confirmed) =>
        if lease.reconciled = false then
          (db₂, some {
            deliveredEvents := delivered
            confirmedPurges := confirmed
            aborted := true })
        else
          (MemoryRevisionGcService.purgeExpired db₂ now, some {
            deliveredEvents := delivered
            confirmedPurges := confirmed
            deletedRevisions := (expiredDocuments db now).length })

/-! ## The queue of the pending events -/

/-- The calls of the pending events, the first one first. -/
def pendingCalls (events : List MemoryRuntimeCompensationEvent) : List CompensationCall :=
  (events.filter fun e => !e.delivered).map (·.call)

section

variable {gateway : Option MemoryDeletionRuntimeGateway} {leaseGuard : Option (Nat → Bool)}

theorem pendingCalls_cons_delivered {event : MemoryRuntimeCompensationEvent}
    (events : List MemoryRuntimeCompensationEvent) (h : event.delivered = true) :
    pendingCalls (event :: events) = pendingCalls events := by
  unfold pendingCalls
  rw [List.filter_cons_of_neg (by simp [h])]

theorem pendingCalls_cons_pending {event : MemoryRuntimeCompensationEvent}
    (events : List MemoryRuntimeCompensationEvent) (h : event.delivered = false) :
    pendingCalls (event :: events) = event.call :: pendingCalls events := by
  unfold pendingCalls
  rw [List.filter_cons_of_pos (by simp [h]), List.map_cons]

/-- The rows keep what they are about. -/
theorem deliverRows_call (now : Time) : ∀ (limit i : Nat)
    (events : List MemoryRuntimeCompensationEvent),
    (deliverRows gateway leaseGuard now limit i events).1.map (·.call) = events.map (·.call)
  | _, _, [] => rfl
  | limit, i, event :: rest => by
    unfold deliverRows
    split
    · exact congrArg (event.call :: ·) (deliverRows_call now limit i rest)
    · cases limit with
      | zero => rfl
      | succ limit =>
        dsimp only
        split
        · rfl
        · split
          · exact congrArg (event.call :: ·) (deliverRows_call now limit (i + 1) rest)
          · exact congrArg (event.call :: ·) (deliverRows_call now limit (i + 1) rest)

/-- A pass under the lease works off the queue. -/
theorem deliverRows_pending (hlease : ∀ i, hasLease leaseGuard i = true) (now : Time) :
    ∀ (limit i : Nat) (events : List MemoryRuntimeCompensationEvent),
      pendingCalls (deliverRows gateway leaseGuard now limit i events).1
        = Batches.pass (accepts gateway) limit (pendingCalls events)
  | _, _, [] => Batches.pass_nil.symm
  | limit, i, event :: rest => by
    unfold deliverRows
    by_cases hdelivered : event.delivered = true
    · rw [if_pos hdelivered, pendingCalls_cons_delivered _ hdelivered,
        pendingCalls_cons_delivered _ hdelivered]
      exact deliverRows_pending hlease now limit i rest
    · rw [if_neg hdelivered]
      have hpending : event.delivered = false := Bool.eq_false_iff.mpr hdelivered
      cases limit with
      | zero => exact (Batches.pass_zero _).symm
      | succ limit =>
        have ih := deliverRows_pending hlease now limit (i + 1) rest
        dsimp only
        rw [hlease, if_neg (by decide), pendingCalls_cons_pending _ hpending,
          Batches.pass_succ_cons]
        by_cases haccepts : accepts gateway event.call = true
        · rw [if_pos haccepts, if_pos haccepts, pendingCalls_cons_delivered _ rfl]
          exact ih
        · have hopen : event.fail.delivered = false := hpending
          rw [if_neg haccepts, if_neg haccepts, pendingCalls_cons_pending _ hopen]
          exact congrArg (event.call :: ·) ih

end

/-- Passes of `deliver_pending`, each with a guard and a time of its own. -/
def deliveries (gateway : Option MemoryDeletionRuntimeGateway)
    (guards : Nat → Option (Nat → Bool)) (clock : Nat → Time) (limit : Nat) :
    Nat → MemoirDb → MemoirDb
  | 0, db => db
  | k + 1, db =>
    (deliverPending gateway (guards k) limit (deliveries gateway guards clock limit k db)
      (clock k)).1

/-- The event with the key has been delivered. -/
def IsDelivered (db : MemoirDb) (idempotencyKey : String) : Prop :=
  ∃ e ∈ db.compensations, e.idempotencyKey = idempotencyKey ∧ e.delivered = true

/-- How many pending events in front of the one with the key fail. -/
def failingBefore (gateway : Option MemoryDeletionRuntimeGateway) (db : MemoirDb)
    (idempotencyKey : String) : Nat :=
  Batches.stuck (accepts gateway)
    (Batches.ahead CompensationCall.idempotencyKey idempotencyKey (pendingCalls db.compensations))

/-- The keys of the events are unique. -/
def UniqueKeys (db : MemoirDb) : Prop :=
  (db.compensations.map (·.idempotencyKey)).Nodup

instance (db : MemoirDb) : Decidable (UniqueKeys db) := by
  unfold UniqueKeys; infer_instance

theorem UniqueKeys.congr {db db' : MemoirDb} (h : UniqueKeys db)
    (hcalls : db'.compensations.map (·.call) = db.compensations.map (·.call)) :
    UniqueKeys db' := by
  have hkeys := congrArg (List.map CompensationCall.idempotencyKey) hcalls
  rw [List.map_map, List.map_map] at hkeys
  exact Eq.mpr (congrArg List.Nodup hkeys) h

theorem UniqueKeys.pending {db : MemoirDb} (h : UniqueKeys db) :
    ((pendingCalls db.compensations).map CompensationCall.idempotencyKey).Nodup := by
  unfold pendingCalls
  rw [List.map_map]
  exact h.sublist (List.filter_sublist.map _)

/-- An event is delivered when its call is not among the pending ones. -/
theorem isDelivered_iff {db : MemoirDb} (hunique : UniqueKeys db) {call : CompensationCall}
    (hmem : call ∈ db.compensations.map (·.call)) :
    IsDelivered db call.idempotencyKey ↔ call ∉ pendingCalls db.compensations := by
  obtain ⟨event, hevent, rfl⟩ := List.mem_map.mp hmem
  have hsame : ∀ {e : MemoryRuntimeCompensationEvent}, e ∈ db.compensations →
      e.idempotencyKey = event.idempotencyKey → e = event := fun he hkey =>
    List.inj_on_of_nodup_map hunique he hevent hkey
  constructor
  · rintro ⟨e, he, hkey, hdelivered⟩ hpending
    obtain ⟨e', he', hcall⟩ := List.mem_map.mp hpending
    obtain ⟨he', hopen⟩ := List.mem_filter.mp he'
    have hkey' : e'.idempotencyKey = event.idempotencyKey :=
      congrArg CompensationCall.idempotencyKey hcall
    rw [hsame he' hkey', ← hsame he hkey, hdelivered] at hopen
    cases hopen
  · intro hpending
    refine ⟨event, hevent, rfl, ?_⟩
    by_contra hopen
    apply hpending
    exact List.mem_map_of_mem (List.mem_filter.mpr ⟨hevent, by simpa using hopen⟩)

section

variable {gateway : Option MemoryDeletionRuntimeGateway} {guards : Nat → Option (Nat → Bool)}
  (clock : Nat → Time) (limit : Nat)

theorem deliveries_call (db : MemoirDb) (k : Nat) :
    (deliveries gateway guards clock limit k db).compensations.map (·.call)
      = db.compensations.map (·.call) := by
  induction k with
  | zero => rfl
  | succ k ih => exact (deliverRows_call (clock k) limit 0 _).trans ih

theorem deliveries_pending (hlease : ∀ k i, hasLease (guards k) i = true) (db : MemoirDb)
    (k : Nat) : pendingCalls (deliveries gateway guards clock limit k db).compensations
      = Batches.passes (accepts gateway) limit k (pendingCalls db.compensations) := by
  induction k with
  | zero => rfl
  | succ k ih =>
    rw [Batches.passes_succ, ← ih]
    exact deliverRows_pending (hlease k) (clock k) limit 0 _

/-- An event is delivered when its call has left the queue. -/
theorem deliveries_left (hlease : ∀ k i, hasLease (guards k) i = true) {db : MemoirDb}
    (hunique : UniqueKeys db) {event : MemoryRuntimeCompensationEvent}
    (hevent : event ∈ db.compensations) (k : Nat) :
    IsDelivered (deliveries gateway guards clock limit k db) event.idempotencyKey ↔
      event.call ∉ Batches.passes (accepts gateway) limit k (pendingCalls db.compensations) := by
  have hcalls : (deliveries gateway guards clock limit k db).compensations.map (·.call)
      = db.compensations.map (·.call) := deliveries_call clock limit db k
  have hmem : event.call
      ∈ (deliveries gateway guards clock limit k db).compensations.map (·.call) := by
    rw [hcalls]
    exact List.mem_map_of_mem hevent
  rw [← deliveries_pending clock limit hlease db k]
  exact isDelivered_iff (hunique.congr hcalls) hmem

end

/-! ## The queries -/

/-- The business side does not know yet that the run is purged. -/
def Unconfirmed (db : MemoirDb) (runId : String) : Prop :=
  ∃ ref ∈ db.runRefs.find? runId, ref.purgeState ≠ "purged"

/-- The business side knows that the run is purged. -/
def Confirmed (db : MemoirDb) (runId : String) : Prop :=
  ∃ ref ∈ db.runRefs.find? runId, ref.purgeState = "purged"

/-- A query is made for the run, and it raises. -/
def QueryRaises (gateway : Option MemoryDeletionRuntimeGateway) (db : MemoirDb)
    (runId : String) : Prop :=
  Unconfirmed db runId ∧ privacyState gateway runId = none

instance (db : MemoirDb) (runId : String) : Decidable (Unconfirmed db runId) := by
  unfold Unconfirmed; infer_instance

instance (db : MemoirDb) (runId : String) : Decidable (Confirmed db runId) := by
  unfold Confirmed; infer_instance

instance (gateway : Option MemoryDeletionRuntimeGateway) (db : MemoirDb) (runId : String) :
    Decidable (QueryRaises gateway db runId) := by
  unfold QueryRaises; infer_instance

theorem Confirmed.not_unconfirmed {db : MemoirDb} {runId : String} (h : Confirmed db runId) :
    ¬ Unconfirmed db runId := by
  obtain ⟨ref, href, hpurged⟩ := h
  rintro ⟨ref', href', hopen⟩
  cases href.symm.trans href'
  exact hopen hpurged

section

variable {gateway : Option MemoryDeletionRuntimeGateway} {leaseGuard : Option (Nat → Bool)}

/-- What is confirmed stays confirmed. -/
theorem reconcileEvents_confirmed (now : Time) {runId : String} :
    ∀ (events : List MemoryRuntimeCompensationEvent) (i : Nat) {db : MemoirDb},
      Confirmed db runId →
      Confirmed (reconcileEvents gateway leaseGuard now i db events).1 runId
  | [], _, _, h => h
  | event :: rest, i, db, h => by
    unfold reconcileEvents
    split
    · exact h
    split
    · exact reconcileEvents_confirmed now rest (i + 1) h
    next ref href =>
    split
    · exact reconcileEvents_confirmed now rest (i + 1) h
    next hopen =>
    split
    · exact h
    split
    · exact reconcileEvents_confirmed now rest (i + 1) h
    · refine reconcileEvents_confirmed now rest (i + 1) ?_
      obtain ⟨ref', href', hpurged⟩ := h
      have hother : runId ≠ (ref.confirmPurge now).runId := by
        intro hsame
        have hkey : ref.runId = event.runId := Table.key_of_find? href
        have hrun : runId = event.runId := hsame.trans hkey
        rw [hrun, href] at href'
        cases href'
        exact hopen hpurged
      exact ⟨ref', (Table.find?_put_ne hother).trans href', hpurged⟩

/-- A run that the Runtime has purged is confirmed exactly if no query in
front of its own raises. -/
theorem reconcileEvents_reaches (hlease : ∀ i, hasLease leaseGuard i = true) (now : Time)
    {runId : String} (hanswer : privacyState gateway runId = some (some "purged")) :
    ∀ (events : List MemoryRuntimeCompensationEvent) (i : Nat) {db : MemoirDb},
      runId ∈ events.map (·.runId) → Unconfirmed db runId →
      (Confirmed (reconcileEvents gateway leaseGuard now i db events).1 runId ↔
        ∀ e ∈ Batches.ahead (·.runId) runId events, ¬ QueryRaises gateway db e.runId)
  | [], _, _, hmem, _ => by cases hmem
  | event :: rest, i, db, hmem, hopen => by
    unfold reconcileEvents
    rw [hlease, if_neg (by decide)]
    by_cases hrun : event.runId = runId
    · -- the query of the run itself
      obtain ⟨ref, href, hstate⟩ := hopen
      have hahead : Batches.ahead (·.runId) runId (event :: rest) = [] :=
        List.takeWhile_cons_of_neg (by simp [hrun])
      rw [hahead, hrun, Option.mem_def.mp href]
      dsimp only
      rw [if_neg hstate, hanswer]
      dsimp only
      rw [if_neg (not_not.mpr rfl)]
      refine ⟨fun _ e he => (nomatch he), fun _ => ?_⟩
      refine reconcileEvents_confirmed now rest (i + 1) ⟨ref.confirmPurge now, ?_, rfl⟩
      have hkey : runId = (ref.confirmPurge now).runId := (Table.key_of_find? href).symm
      rw [Option.mem_def, hkey]
      exact Table.find?_put_self (hkey ▸ href)
    · have hrest : runId ∈ rest.map (·.runId) := by
        rcases List.mem_cons.mp hmem with hsame | hrest
        · exact absurd hsame.symm hrun
        · exact hrest
      have hahead : Batches.ahead (·.runId) runId (event :: rest)
          = event :: Batches.ahead (·.runId) runId rest :=
        List.takeWhile_cons_of_pos (by simpa using hrun)
      -- a query that goes through leaves the others to the rest of the pass
      have hpassed : ∀ {db' : MemoirDb}, ¬ QueryRaises gateway db event.runId →
          Unconfirmed db' runId →
          (∀ e ∈ rest, (QueryRaises gateway db' e.runId ↔ QueryRaises gateway db e.runId)) →
          (Confirmed (reconcileEvents gateway leaseGuard now (i + 1) db' rest).1 runId ↔
            ∀ e ∈ event :: Batches.ahead (·.runId) runId rest,
              ¬ QueryRaises gateway db e.runId) := by
        intro db' hquiet hopen' hsame
        rw [reconcileEvents_reaches hlease now hanswer rest (i + 1) hrest hopen',
          List.forall_mem_cons, and_iff_right hquiet]
        refine forall₂_congr fun e he => not_congr (hsame e ?_)
        exact (List.takeWhile_prefix _).subset he
      rw [hahead]
      cases href : db.runRefs.find? event.runId with
      | none =>
        refine hpassed ?_ hopen fun _ _ => Iff.rfl
        rintro ⟨⟨ref, href', -⟩, -⟩
        cases href.symm.trans href'
      | some ref =>
        dsimp only
        by_cases hpurged : ref.purgeState = "purged"
        · rw [if_pos hpurged]
          refine hpassed ?_ hopen fun _ _ => Iff.rfl
          exact fun h => Confirmed.not_unconfirmed ⟨ref, href, hpurged⟩ h.1
        · rw [if_neg hpurged]
          cases hstate : privacyState gateway event.runId with
          | none =>
            refine iff_of_false (fun h => h.not_unconfirmed hopen) fun h => ?_
            exact h event List.mem_cons_self ⟨⟨ref, href, hpurged⟩, hstate⟩
          | some answer =>
            have hquiet : ¬ QueryRaises gateway db event.runId := by
              rintro ⟨-, hraised⟩
              cases hstate.symm.trans hraised
            dsimp only
            split
            · exact hpassed hquiet hopen fun _ _ => Iff.rfl
            · have hkey : ∀ {id : String}, id ≠ event.runId →
                  (db.runRefs.put (ref.confirmPurge now)).find? id = db.runRefs.find? id := by
                intro id hid
                have hrow : ref.runId = event.runId := Table.key_of_find? href
                exact Table.find?_put_ne fun he => hid (he.trans hrow)
              refine hpassed hquiet ?_ fun e _ => ?_
              · unfold Unconfirmed
                rw [hkey fun he => hrun he.symm]
                exact hopen
              · by_cases he : e.runId = event.runId
                · -- the same run is not asked about again
                  rw [he]
                  refine iff_of_false ?_ hquiet
                  rintro ⟨-, hraised⟩
                  cases hstate.symm.trans hraised
                · unfold QueryRaises Unconfirmed
                  rw [hkey he]

/-- Nothing catches a query that raises. -/
theorem reconcileEvents_raises (hlease : ∀ i, hasLease leaseGuard i = true) (now : Time) :
    ∀ (events : List MemoryRuntimeCompensationEvent) (i : Nat) (db : MemoirDb),
      (reconcileEvents gateway leaseGuard now i db events).2 = none ↔
        ∃ e ∈ events, QueryRaises gateway db e.runId
  | [], _, _ => iff_of_false (fun h => (nomatch h)) fun ⟨_, he, _⟩ => (nomatch he)
  | event :: rest, i, db => by
    have hcons : (∃ e ∈ event :: rest, QueryRaises gateway db e.runId) ↔
        QueryRaises gateway db event.runId ∨ ∃ e ∈ rest, QueryRaises gateway db e.runId :=
      List.exists_mem_cons_iff ..
    rw [hcons]
    unfold reconcileEvents
    rw [hlease, if_neg (by decide)]
    cases href : db.runRefs.find? event.runId with
    | none =>
      have hquiet : ¬ QueryRaises gateway db event.runId := by
        rintro ⟨⟨ref, href', -⟩, -⟩
        cases href.symm.trans href'
      rw [or_iff_right hquiet]
      exact reconcileEvents_raises hlease now rest (i + 1) db
    | some ref =>
      dsimp only
      by_cases hpurged : ref.purgeState = "purged"
      · have hquiet : ¬ QueryRaises gateway db event.runId := fun h =>
          Confirmed.not_unconfirmed ⟨ref, href, hpurged⟩ h.1
        rw [if_pos hpurged, or_iff_right hquiet]
        exact reconcileEvents_raises hlease now rest (i + 1) db
      · rw [if_neg hpurged]
        cases hstate : privacyState gateway event.runId with
        | none => exact iff_of_true rfl (Or.inl ⟨⟨ref, href, hpurged⟩, hstate⟩)
        | some answer =>
          have hquiet : ∀ {db' : MemoirDb}, ¬ QueryRaises gateway db' event.runId := by
            rintro db' ⟨-, hraised⟩
            cases hstate.symm.trans hraised
          rw [or_iff_right hquiet]
          dsimp only
          split
          · exact reconcileEvents_raises hlease now rest (i + 1) db
          · dsimp only
            rw [Option.map_eq_none_iff, reconcileEvents_raises hlease now rest (i + 1)]
            refine exists_congr fun e => and_congr_right fun _ => ?_
            by_cases he : e.runId = event.runId
            · rw [he]
              exact iff_of_false hquiet hquiet
            · have hrow : ref.runId = event.runId := Table.key_of_find? href
              have hfind : (db.runRefs.put (ref.confirmPurge now)).find? e.runId
                  = db.runRefs.find? e.runId :=
                Table.find?_put_ne fun hsame => he (hsame.trans hrow)
              unfold QueryRaises Unconfirmed
              rw [hfind]

end

/-- A round under the lease is lost as a whole, with what it has delivered,
exactly if one of its queries raises. -/
theorem runMaintenance_lost_iff (gateway : Option MemoryDeletionRuntimeGateway) (db : MemoirDb)
    (now : Time) : (runMaintenance gateway {} db now).2 = none ↔
      ∃ e ∈ deliveredPurges db, QueryRaises gateway db e.runId := by
  have hlease : ∀ i, hasLease (some fun _ => true) i = true := fun _ => rfl
  refine Iff.trans ?_ (reconcileEvents_raises hlease now (deliveredPurges db) 0
    (deliverPending gateway (some fun _ => true) 20 db now).1)
  unfold runMaintenance reconcilePurges
  rw [if_neg (by decide)]
  dsimp only
  rw [if_neg (by decide)]
  split
  next hpass => exact iff_of_true rfl (congrArg Prod.snd hpass)
  next hpass =>
    rw [if_neg (by decide)]
    refine iff_of_false (fun h => (nomatch h)) fun h => ?_
    cases (congrArg Prod.snd hpass).symm.trans h

/-- **What the passes come to.** An event whose call goes through is
delivered sooner or later exactly if fewer failing ones than the limit are in
front of it; and a run that the Runtime has purged is confirmed by a pass
exactly if no query in front of its own raises. -/
theorem compensation_reached_iff (gateway : Option MemoryDeletionRuntimeGateway)
    (guards : Nat → Option (Nat → Bool)) (hlease : ∀ k i, hasLease (guards k) i = true)
    (clock : Nat → Time) (limit : Nat) (db : MemoirDb) (hunique : UniqueKeys db) :
    (∀ event ∈ db.compensations, event.delivered = false → accepts gateway event.call = true →
      ((∃ k, IsDelivered (deliveries gateway guards clock limit k db) event.idempotencyKey) ↔
        failingBefore gateway db event.idempotencyKey < limit)) ∧
    (∀ (stored : MemoirDb) (now : Time) (runId : String),
      runId ∈ (deliveredPurges stored).map (·.runId) → Unconfirmed db runId →
      privacyState gateway runId = some (some "purged") →
      (Confirmed (reconcilePurges gateway (guards 0) stored db now).1 runId ↔
        ∀ e ∈ Batches.ahead (·.runId) runId (deliveredPurges stored),
          ¬ QueryRaises gateway db e.runId)) := by
  refine ⟨fun event hevent hopen haccepts => ?_, fun stored now runId hmem hopen hanswer => ?_⟩
  · rw [exists_congr fun k => deliveries_left clock limit hlease hunique hevent k]
    have hpending : event.call ∈ pendingCalls db.compensations :=
      List.mem_map_of_mem (List.mem_filter.mpr ⟨hevent, by simp [hopen]⟩)
    exact Batches.leaves_iff hunique.pending hpending haccepts
  · exact reconcileEvents_reaches (hlease 0) now hanswer _ 0 hmem hopen

/-! ## A deleted archive behind a run that fails -/

/-- A purge that is to be delivered, or has been. -/
def purgeEvent (runId : String) (delivered : Bool) : MemoryRuntimeCompensationEvent where
  archiveId := "archive"
  runId := runId
  generationEpoch := 1
  action := "privacy_purge"
  idempotencyKey := runId
  delivered := delivered

/-- Two runs whose purge is requested, the first one with a failing call. -/
def twoPurges (delivered : Bool) : MemoirDb where
  runRefs := ⟨[
    { runId := "lost", archiveId := "archive", generationEpoch := 1, purgeState := "requested"
      updatedAt := 0 },
    { runId := "kept", archiveId := "archive", generationEpoch := 1, purgeState := "requested"
      updatedAt := 0 }], by decide⟩
  compensations := [purgeEvent "lost" delivered, purgeEvent "kept" delivered]

/-- The Runtime fails for the first run. -/
def lostRun : MemoryDeletionRuntimeGateway where
  requestPrivatePurge runId _ := decide (runId ≠ "lost")
  cancelRun _ _ := true
  getPrivacyState runId := if runId = "lost" then none else some (some "purged")

/-- The event of the run that fails fills every batch, and its query ends
every pass: the other run is neither purged nor confirmed. -/
theorem lost_run_blocks :
    (accepts (some lostRun) (purgeEvent "kept" false).call = true ∧
      ∀ k, ¬ IsDelivered (deliveries (some lostRun) (fun _ => none) (fun _ => 0) 1 k
        (twoPurges false)) "kept") ∧
    privacyState (some lostRun) "kept" = some (some "purged") ∧
      ¬ Confirmed (reconcilePurges (some lostRun) none (twoPurges true) (twoPurges true) 0).1
        "kept" := by
  refine ⟨⟨by decide, fun k hdelivered => ?_⟩, by decide, by decide⟩
  have hunique : UniqueKeys (twoPurges false) := by decide
  have hmem : purgeEvent "kept" false ∈ (twoPurges false).compensations := by decide
  have hlease : ∀ k i, hasLease ((fun _ => none : Nat → Option (Nat → Bool)) k) i = true :=
    fun _ _ => rfl
  apply (deliveries_left (fun _ => 0) 1 hlease hunique hmem k).mp hdelivered
  have hqueue : pendingCalls (twoPurges false).compensations
      = [(purgeEvent "lost" false).call] ++ [(purgeEvent "kept" false).call] := rfl
  rw [hqueue, Batches.passes_front _ (by decide)]
  exact List.mem_append_right _ List.mem_cons_self

/-- With two events in a batch the other run is purged. -/
theorem kept_run_delivered :
    ∃ k, IsDelivered (deliveries (some lostRun) (fun _ => none) (fun _ => 0) 2 k
      (twoPurges false)) "kept" :=
  ((compensation_reached_iff (some lostRun) (fun _ => none) (fun _ _ => rfl) (fun _ => 0) 2
    (twoPurges false) (by decide)).1 (purgeEvent "kept" false) (by decide) rfl (by decide)).mpr
    (by decide)

end MemoryDeletionCompensationService

end AgentRuntime
