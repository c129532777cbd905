import AgentRuntime.Traffic
import AgentRuntime.Lib.Runs
import Mathlib.Data.List.Perm.Subperm
import Mathlib.Algebra.Order.BigOperators.Group.List
import Mathlib.Algebra.Order.Group.Nat

/-!
# What the permits promise

The script of `Traffic.lean` is run by any number of workers on one route.
Beside its store we keep what they were told: a `Grant` for every permit
admitted, and whether it was started and settled in time. A grant that is
neither settled nor expired is live; one that expires before it was started
or settled is rolled back, and every other one counts for a minute
(`Grant.Charged`).

The store is related to the grants permit by permit (`Tracks`): the last
grant of a permit has its slot until it is settled or reaped, and its
entries in the rate windows until they are trimmed or rolled back; earlier
grants of the same permit are over, because a permit can only be admitted
again once its hash is gone, a minute past the end of its slot. From there
the limits are counting arguments (`Within`).
-/

namespace AgentRuntime

open Keyed Expiring Runs

/-- An admission, as the worker that asked for it knows it. -/
structure Grant where
  permit : String
  at_ : Time
  deadline : Time
  tokens : Nat
  started : Bool := false
  settled : Bool := false
  deriving DecidableEq, Repr

namespace Grant

/-- The permit has its slot. -/
def Live (now : Time) (g : Grant) : Prop :=
  g.settled = false ∧ now < g.deadline

/-- The permit expired before it was started or settled. -/
def RolledBack (now : Time) (g : Grant) : Prop :=
  g.started = false ∧ g.settled = false ∧ g.deadline ≤ now

/-- The permit counts in the rate windows. -/
def Charged (now : Time) (g : Grant) : Prop :=
  now < g.at_ + rateWindow ∧ ¬ g.RolledBack now

/-- Nothing is left of the grant. -/
def Over (now : Time) (g : Grant) : Prop :=
  g.at_ + rateWindow ≤ now ∧ (g.settled = true ∨ g.deadline ≤ now)

instance (now : Time) (g : Grant) : Decidable (g.Live now) := by
  unfold Live; infer_instance

instance (now : Time) (g : Grant) : Decidable (g.RolledBack now) := by
  unfold RolledBack; infer_instance

instance (now : Time) (g : Grant) : Decidable (g.Charged now) := by
  unfold Charged; infer_instance

end Grant

/-- The last grant of a permit, the newest grants first. -/
def lastGrant (grants : List Grant) (permit : String) : Option Grant :=
  grants.find? (fun g => decide (g.permit = permit))

/-- Change the last grant of a permit. -/
def onLast (permit : String) (f : Grant → Grant) : List Grant → List Grant
  | [] => []
  | g :: gs => if g.permit = permit then f g :: gs else g :: onLast permit f gs

/-- The store, the clock, the grants, and the last cooldown that was set. -/
structure TrafficState where
  redis : Redis := {}
  clock : Time := 0
  grants : List Grant := []
  cooldown : Time := 0

/-- An operation and the time that passes before it. -/
structure TrafficEvent where
  elapsed : Time := 0
  op : TrafficOp

/-- What the worker learns from a reply. A repeated `acquire` of a permit it
still holds is told the state, with no detail, and learns nothing. -/
def learn (route : ModelRoute) (now : Time) (grants : List Grant) :
    TrafficOp → PermitStatus × Time → List Grant
  | .acquire permit tokens, (.acquired, detail) =>
    if detail = 0 then grants
    else
      { permit := permit, at_ := now, deadline := now + route.permitTtl, tokens := tokens } :: grants
  | .started permit, (.started, _) => onLast permit (fun g => { g with started := true }) grants
  | .settle permit _, (.settled, _) =>
    onLast permit (fun g => if now < g.deadline then { g with settled := true } else g) grants
  | _, _ => grants

/-- The cooldown a reply says was set. -/
def learnCooldown (r : Redis) (now cooldown : Time) : TrafficOp → PermitStatus → Time
  | .settle _ retryAfter, .settled =>
    if 0 < retryAfter then r.cooldown now retryAfter else cooldown
  | _, _ => cooldown

/-- One operation on the route. -/
def trafficStep (route : ModelRoute) (s : TrafficState) (e : TrafficEvent) : TrafficState :=
  let now := s.clock + e.elapsed
  let result := s.redis.permitScript route now e.op
  { redis := result.1
    clock := now
    grants := learn route now s.grants e.op result.2
    cooldown := learnCooldown s.redis now s.cooldown e.op result.2.1 }

/-- What the operation is answered. -/
def replyTo (route : ModelRoute) (s : TrafficState) (e : TrafficEvent) : PermitStatus :=
  (s.redis.permitScript route (s.clock + e.elapsed) e.op).2.1

/-- What the operations of a run are answered. -/
def replies (route : ModelRoute) : TrafficState → List TrafficEvent →
    List (TrafficOp × PermitStatus)
  | _, [] => []
  | s, e :: es => (e.op, replyTo route s e) :: replies route (trafficStep route s e) es

/-- How many grants of a permit were started. -/
def startedGrants (grants : List Grant) (permit : String) : Nat :=
  grants.countP (fun g => decide (g.permit = permit ∧ g.started = true))

/-! ## The store and the last grant of a permit -/

namespace Redis

/-- The slot of the permit is taken, and its hash says whether it was
started. -/
structure HasSlot (route : ModelRoute) (r : Redis) (p : String) (g : Grant) : Prop where
  slot : r.active.find? p = some (p, g.deadline)
  unsettled : g.settled = false
  hash : ∃ e, g.deadline + rateWindow ≤ e ∧ r.permits p = some {
    value := { state := if g.started then .started else .acquired, routeId := some route.routeId }
    expiresAt := some e }

/-- The slot of the permit is free again: it was settled, or reaped. -/
structure GaveSlot (now : Time) (r : Redis) (p : String) (g : Grant) : Prop where
  slot : r.active.find? p = none
  ended : g.settled = true ∨ g.deadline ≤ now
  hash : ∃ h e, g.at_ + rateWindow ≤ e ∧
    r.permits p = some { value := h, expiresAt := some e } ∧
    (h.state = .settled ∨ h.state = .expired) ∧ (h.routeId = none → g.at_ + rateWindow ≤ now)
  rolledBack : g.started = false → g.settled = false →
    r.rpm.find? p = none ∨ g.at_ + rateWindow ≤ now

/-- What the store holds of a permit whose last grant is `g`. -/
structure Tracks (route : ModelRoute) (now : Time) (r : Redis) (p : String) (g : Grant) : Prop where
  slot : HasSlot route r p g ∨ GaveSlot now r p g
  order : g.at_ ≤ g.deadline
  rpm : r.rpm.find? p = some (p, g.at_) ∨
    r.rpm.find? p = none ∧ (g.at_ + rateWindow ≤ now ∨ g.RolledBack now)
  tpm : r.tpm.find? p = r.rpm.find? p
  tokens : r.tokenAmounts.find? p = (r.rpm.find? p).map (fun _ => (p, g.tokens))

/-- What it holds of a permit that was never granted: nothing. -/
structure Unknown (r : Redis) (p : String) : Prop where
  slot : r.active.find? p = none
  hash : r.permits p = none
  rpm : r.rpm.find? p = none
  tpm : r.tpm.find? p = none
  tokens : r.tokenAmounts.find? p = none

/-- What the store holds of a permit, by its last grant. -/
def Cell (route : ModelRoute) (now : Time) (r : Redis) (p : String) : Option Grant → Prop
  | none => Unknown r p
  | some g => Tracks route now r p g

/-- Two stores hold the same of a permit. -/
structure SameAt (p : String) (r r' : Redis) : Prop where
  active : r'.active.find? p = r.active.find? p
  hash : r'.permits p = r.permits p
  rpm : r'.rpm.find? p = r.rpm.find? p
  tpm : r'.tpm.find? p = r.tpm.find? p
  tokens : r'.tokenAmounts.find? p = r.tokenAmounts.find? p

theorem SameAt.refl (p : String) (r : Redis) : SameAt p r r := ⟨rfl, rfl, rfl, rfl, rfl⟩

theorem SameAt.trans {p : String} {r₁ r₂ r₃ : Redis} (h : SameAt p r₁ r₂) (h' : SameAt p r₂ r₃) :
    SameAt p r₁ r₃ :=
  ⟨h'.active.trans h.active, h'.hash.trans h.hash, h'.rpm.trans h.rpm, h'.tpm.trans h.tpm,
    h'.tokens.trans h.tokens⟩

variable {route : ModelRoute} {now : Time} {r r' : Redis} {p : String}

theorem Cell.congr {g? : Option Grant} (h : Cell route now r p g?) (same : SameAt p r r') :
    Cell route now r' p g? := by
  obtain ⟨hactive, hhash, hrpm, htpm, htokens⟩ := same
  cases g? with
  | none =>
    exact ⟨hactive.trans h.slot, hhash.trans h.hash, hrpm.trans h.rpm, htpm.trans h.tpm,
      htokens.trans h.tokens⟩
  | some g =>
    refine ⟨?_, h.order, ?_, ?_, ?_⟩
    · rcases h.slot with hslot | hgave
      · exact Or.inl ⟨hactive.trans hslot.slot, hslot.unsettled, hhash ▸ hslot.hash⟩
      · exact Or.inr ⟨hactive.trans hgave.slot, hgave.ended, hhash ▸ hgave.hash,
          hrpm ▸ hgave.rolledBack⟩
    · rw [hrpm]
      exact h.rpm
    · rw [htpm, hrpm]
      exact h.tpm
    · rw [htokens, hrpm]
      exact h.tokens

/-- Time passes. -/
theorem Cell.wait {g? : Option Grant} (t : Time) (h : Cell route now r p g?) :
    Cell route (now + t) r p g? := by
  cases g? with
  | none => exact ⟨h.slot, h.hash, h.rpm, h.tpm, h.tokens⟩
  | some g =>
    refine ⟨?_, h.order, ?_, h.tpm, h.tokens⟩
    · rcases h.slot with hslot | hgave
      · exact Or.inl hslot
      · obtain ⟨hash, e, hle, hperm, hstate, hroute⟩ := hgave.hash
        refine Or.inr ⟨hgave.slot, hgave.ended.imp_right fun hle => by lia,
          ⟨hash, e, hle, hperm, hstate, fun hn => by have := hroute hn; lia⟩, ?_⟩
        intro hstarted hsettled
        exact (hgave.rolledBack hstarted hsettled).imp_right fun hle => by lia
    · refine h.rpm.imp_right fun ⟨hnone, hwhy⟩ => ⟨hnone, ?_⟩
      rcases hwhy with hle | ⟨hstarted, hsettled, hle⟩
      · exact Or.inl (by lia)
      · exact Or.inr ⟨hstarted, hsettled, by lia⟩

/-! ### Reaping -/

theorem mem_upTo {t : ZSet} {now : Time} {p : String} :
    p ∈ upTo t now ↔ ∃ d, t.find? p = some (p, d) ∧ d ≤ now := by
  unfold upTo
  rw [List.mem_map]
  constructor
  · rintro ⟨⟨q, d⟩, hmem, rfl⟩
    obtain ⟨hrow, hle⟩ := List.mem_filter.mp hmem
    exact ⟨d, Table.find?_of_mem hrow, of_decide_eq_true hle⟩
  · rintro ⟨d, hfind, hle⟩
    exact ⟨(p, d), List.mem_filter.mpr ⟨Table.mem_of_find? hfind, decide_eq_true hle⟩, rfl⟩

theorem nodup_upTo (t : ZSet) (now : Time) : (upTo t now).Nodup :=
  t.nodup.sublist (List.filter_sublist.map _)

theorem reapPermit_other {q : String} (h : p ≠ q) (now : Time) (r : Redis) :
    SameAt p r (reapPermit now r q) := by
  have herase : ∀ t : ZSet, (t.erase q).find? p = t.find? p := fun t => by
    rw [Table.find?_erase, if_neg h]
  unfold reapPermit
  refine ⟨herase _, Function.update_of_ne h _ _, ?_, ?_, ?_⟩
  · dsimp only
    split
    · exact herase _
    · rfl
  · dsimp only
    split
    · exact herase _
    · rfl
  · dsimp only
    split
    · rw [Table.find?_erase, if_neg h]
    · rfl

theorem reapAll_other (now : Time) : ∀ (ps : List String) (r : Redis), p ∉ ps →
    SameAt p r (ps.foldl (reapPermit now) r)
  | [], r, _ => SameAt.refl p r
  | _ :: ps, r, h =>
    (reapPermit_other (List.ne_of_not_mem_cons h) now r).trans
      (reapAll_other now ps _ (List.not_mem_of_not_mem_cons h))

/-- Reaping a slot that has expired. -/
theorem tracks_reapPermit {g : Grant} (h : Tracks route now r p g) (hslot : HasSlot route r p g)
    (hle : g.deadline ≤ now) : Tracks route now (reapPermit now r p) p g := by
  obtain ⟨e, he, hperm⟩ := hslot.hash
  have hfree : ((reapPermit now r p).active).find? p = none := by
    show (r.active.erase p).find? p = none
    rw [Table.find?_erase, if_pos rfl]
  have hread : r.hash now p = if now < e then some {
      state := if g.started then .started else .acquired, routeId := some route.routeId }
      else none := by
    unfold Redis.hash
    rw [hperm, get_until]
  have horder := h.order
  have hnew : (reapPermit now r p).permits p = some {
      value := { state := .expired, routeId := (r.hash now p).bind (·.routeId) }
      expiresAt := some (now + rateWindow) } := Function.update_self _ _ _
  by_cases hback : (r.hash now p).map (·.state) = some .acquired
  · -- it was never started: out of the windows
    have hstarted : g.started = false := by
      rw [hread] at hback
      cases hg : g.started with
      | false => rfl
      | true =>
        rw [hg] at hback
        split at hback <;> simp at hback
    have halive : now < e := by
      by_contra hdead
      rw [hread, if_neg hdead] at hback
      cases hback
    have hrpm : (reapPermit now r p).rpm.find? p = none := by
      unfold reapPermit
      dsimp only
      rw [if_pos hback, Table.find?_erase, if_pos rfl]
    have htpm : (reapPermit now r p).tpm.find? p = none := by
      unfold reapPermit
      dsimp only
      rw [if_pos hback, Table.find?_erase, if_pos rfl]
    have htokens : (reapPermit now r p).tokenAmounts.find? p = none := by
      unfold reapPermit
      dsimp only
      rw [if_pos hback, Table.find?_erase, if_pos rfl]
    refine ⟨Or.inr ⟨hfree, Or.inr hle, ⟨_, _, ?_, hnew, Or.inr rfl, ?_⟩, fun _ _ => Or.inl hrpm⟩,
      horder, Or.inr ⟨hrpm, Or.inr ⟨hstarted, hslot.unsettled, hle⟩⟩, by rw [htpm, hrpm],
      by rw [htokens, hrpm]; rfl⟩
    · lia
    · intro hnone
      rw [hread, if_pos halive] at hnone
      cases hnone
  · -- it was started, or its hash is gone and its minute is over
    have hsame : (reapPermit now r p).rpm = r.rpm ∧ (reapPermit now r p).tpm = r.tpm ∧
        (reapPermit now r p).tokenAmounts = r.tokenAmounts := by
      unfold reapPermit
      dsimp only
      rw [if_neg hback, if_neg hback, if_neg hback]
      exact ⟨rfl, rfl, rfl⟩
    obtain ⟨hrpm, htpm, htokens⟩ := hsame
    have hgone : ¬ now < e → g.at_ + rateWindow ≤ now := fun hdead => by lia
    refine ⟨Or.inr ⟨hfree, Or.inr hle, ⟨_, _, ?_, hnew, Or.inr rfl, ?_⟩, ?_⟩, horder,
      by rw [hrpm]; exact h.rpm, by rw [htpm, hrpm]; exact h.tpm,
      by rw [htokens, hrpm]; exact h.tokens⟩
    · lia
    · intro hnone
      refine hgone fun halive => ?_
      rw [hread, if_pos halive] at hnone
      cases hnone
    · intro hstarted _
      refine Or.inr (hgone fun halive => hback ?_)
      rw [hread, if_pos halive, hstarted]
      rfl

/-- What reaping leaves of a permit: its cell, and no slot that has
expired. -/
theorem cell_reapExpiredPermits {g? : Option Grant} (h : Cell route now r p g?) :
    Cell route now (r.reapExpiredPermits now) p g? ∧
      ∀ d, (r.reapExpiredPermits now).active.find? p = some (p, d) → now < d := by
  unfold reapExpiredPermits
  by_cases hmem : p ∈ upTo r.active now
  · obtain ⟨d, hfind, hle⟩ := mem_upTo.mp hmem
    obtain ⟨ps, qs, hsplit⟩ := List.append_of_mem hmem
    have hnodup := nodup_upTo r.active now
    rw [hsplit] at hnodup ⊢
    obtain ⟨-, hqs, hdisjoint⟩ := List.nodup_append.mp hnodup
    have hps : p ∉ ps := fun hp => hdisjoint p hp p List.mem_cons_self rfl
    have hqs' : p ∉ qs := (List.nodup_cons.mp hqs).1
    rw [List.foldl_append, List.foldl_cons]
    have hfirst := reapAll_other now ps r hps
    have hlast := reapAll_other now qs (reapPermit now (ps.foldl (reapPermit now) r) p) hqs'
    have hcell := h.congr hfirst
    have hfind' := hfirst.active.trans hfind
    cases g? with
    | none =>
      have hnone : _ = none := hcell.slot
      rw [hfind'] at hnone
      cases hnone
    | some g =>
      rcases hcell.slot with hslot | hgave
      · have hd : g.deadline = d := by
          have := hslot.slot.symm.trans hfind'
          cases this
          rfl
        have hreaped := tracks_reapPermit hcell hslot (hd ▸ hle)
        refine ⟨(show Cell route now _ p (some g) from hreaped).congr hlast, fun d' hd' => ?_⟩
        rw [hlast.active] at hd'
        have hfree : ((reapPermit now (ps.foldl (reapPermit now) r) p).active).find? p = none := by
          show (Table.erase _ p).find? p = none
          rw [Table.find?_erase, if_pos rfl]
        rw [hfree] at hd'
        cases hd'
      · rw [hgave.slot] at hfind'
        cases hfind'
  · have hsame := reapAll_other now _ r hmem
    refine ⟨h.congr hsame, fun d hd => ?_⟩
    by_contra hle
    rw [hsame.active] at hd
    exact hmem (mem_upTo.mpr ⟨d, hd, by lia⟩)

theorem blocked_reapExpiredPermits (now : Time) (r : Redis) :
    (r.reapExpiredPermits now).blocked = r.blocked := by
  unfold reapExpiredPermits
  generalize upTo r.active now = ps
  induction ps generalizing r with
  | nil => rfl
  | cons p ps ih => exact (ih (reapPermit now r p)).trans rfl

/-! ### Trimming and admitting -/

theorem mem_stale {t : ZSet} {now : Time} {p : String} :
    p ∈ stale t now ↔ ∃ d, t.find? p = some (p, d) ∧ d + rateWindow ≤ now := by
  unfold stale
  rw [List.mem_map]
  constructor
  · rintro ⟨⟨q, d⟩, hmem, rfl⟩
    obtain ⟨hrow, hle⟩ := List.mem_filter.mp hmem
    exact ⟨d, Table.find?_of_mem hrow, of_decide_eq_true hle⟩
  · rintro ⟨d, hfind, hle⟩
    exact ⟨(p, d), List.mem_filter.mpr ⟨Table.mem_of_find? hfind, decide_eq_true hle⟩, rfl⟩

/-- What trimming leaves of the windows of a permit: all of them, or
nothing. -/
theorem trim_windows {g : Grant} (h : Tracks route now r p g) :
    ((r.trim now).rpm.find? p = r.rpm.find? p ∧ (r.trim now).tpm.find? p = r.tpm.find? p ∧
      (r.trim now).tokenAmounts.find? p = r.tokenAmounts.find? p ∧
      (r.rpm.find? p = none ∨ now < g.at_ + rateWindow)) ∨
    ((r.trim now).rpm.find? p = none ∧ (r.trim now).tpm.find? p = none ∧
      (r.trim now).tokenAmounts.find? p = none ∧ g.at_ + rateWindow ≤ now) := by
  have htpm := h.tpm
  have htokens := h.tokens
  unfold trim
  simp only [Table.find?_filter]
  rcases h.rpm with hrpm | ⟨hrpm, -⟩
  · rw [hrpm] at htpm htokens
    by_cases hle : g.at_ + rateWindow ≤ now
    · have hstale : p ∈ stale r.tpm now := mem_stale.mpr ⟨g.at_, htpm, hle⟩
      refine Or.inr ⟨?_, ?_, ?_, hle⟩
      · rw [hrpm]
        exact Option.filter_some_neg (by simpa using hle)
      · rw [htpm]
        exact Option.filter_some_neg (by simpa using hstale)
      · rw [htokens]
        exact Option.filter_some_neg (by simpa using hstale)
    · have hstale : p ∉ stale r.tpm now := fun hmem => by
        obtain ⟨d, hd, hdle⟩ := mem_stale.mp hmem
        rw [htpm] at hd
        cases hd
        exact hle hdle
      refine Or.inl ⟨?_, ?_, ?_, Or.inr (by lia)⟩
      · rw [hrpm]
        exact Option.filter_some_pos (by simpa using hle)
      · rw [htpm]
        exact Option.filter_some_pos (by simpa using hstale)
      · rw [htokens]
        exact Option.filter_some_pos (by simpa using hstale)
  · rw [hrpm] at htpm htokens
    rw [hrpm, htpm, htokens]
    exact Or.inl ⟨rfl, rfl, rfl, Or.inl rfl⟩

theorem cell_trim {g? : Option Grant} (h : Cell route now r p g?) :
    Cell route now (r.trim now) p g? := by
  cases g? with
  | none =>
    refine ⟨h.slot, h.hash, ?_, ?_, ?_⟩
    · exact (Table.find?_filter ..).trans (by rw [h.rpm]; rfl)
    · exact (Table.find?_filter ..).trans (by rw [h.tpm]; rfl)
    · exact (Table.find?_filter ..).trans (by rw [h.tokens]; rfl)
  | some g =>
    rcases trim_windows h with ⟨hrpm, htpm, htokens, -⟩ | ⟨hrpm, htpm, htokens, hle⟩
    · exact (show Cell route now r p (some g) from h).congr ⟨rfl, rfl, hrpm, htpm, htokens⟩
    · refine ⟨?_, h.order, Or.inr ⟨hrpm, Or.inl hle⟩, htpm.trans hrpm.symm,
        by rw [htokens, hrpm]; rfl⟩
      rcases h.slot with hslot | hgave
      · exact Or.inl ⟨hslot.slot, hslot.unsettled, hslot.hash⟩
      · exact Or.inr ⟨hgave.slot, hgave.ended, hgave.hash, fun _ _ => Or.inr hle⟩

theorem le_ceilSeconds (t : Time) : t ≤ ceilSeconds t := by
  unfold ceilSeconds seconds
  lia

theorem tracks_grant (route : ModelRoute) (now : Time) (r : Redis) (p : String) (tokens : Nat) :
    Tracks route now (r.grant route now p tokens) p {
      permit := p, at_ := now, deadline := now + route.permitTtl, tokens := tokens } := by
  have hupsert : ∀ (t : ZSet) (d : Time), (t.upsert (p, d)).find? p = some (p, d) := fun t d =>
    (Table.find?_upsert t (p, d) p).trans (if_pos rfl)
  have htokens : (r.tokenAmounts.upsert (p, tokens)).find? p = some (p, tokens) :=
    (Table.find?_upsert _ (p, tokens) p).trans (if_pos rfl)
  refine ⟨Or.inl ⟨hupsert _ _, rfl, _, ?_, Function.update_self _ _ _⟩, ?_, Or.inl (hupsert _ _),
    (hupsert _ _).trans (hupsert _ _).symm, ?_⟩
  · have := le_ceilSeconds route.permitTtl
    lia
  · lia
  · show (r.tokenAmounts.upsert (p, tokens)).find? p = ((r.rpm.upsert (p, now)).find? p).map _
    rw [htokens, hupsert]
    rfl

theorem grant_other {q : String} (h : p ≠ q) (route : ModelRoute) (now : Time) (r : Redis)
    (tokens : Nat) : SameAt p r (r.grant route now q tokens) := by
  have hupsert : ∀ (t : ZSet) (d : Time), (t.upsert (q, d)).find? p = t.find? p := fun t d =>
    (Table.find?_upsert t (q, d) p).trans (if_neg h)
  exact ⟨hupsert _ _, Function.update_of_ne h _ _, hupsert _ _, hupsert _ _,
    (Table.find?_upsert _ (q, tokens) p).trans (if_neg h)⟩

/-! ### Starting and settling -/

theorem setState_other {q : String} (h : p ≠ q) (r : Redis) (state : PermitState) :
    SameAt p r (r.setState q state) :=
  ⟨rfl, Function.update_of_ne h _ _, rfl, rfl, rfl⟩

/-- A permit whose hash still says acquired is held, and was not started. -/
theorem tracks_of_acquired {g? : Option Grant} {h : PermitHash} (hcell : Cell route now r p g?)
    (hfresh : ∀ d, r.active.find? p = some (p, d) → now < d) (hread : r.hash now p = some h)
    (hstate : h.state = .acquired) :
    ∃ g, g? = some g ∧ HasSlot route r p g ∧ g.started = false ∧ now < g.deadline := by
  obtain ⟨e, hperm, -⟩ := get_eq_some.mp hread
  cases g? with
  | none =>
    have hnone : r.permits p = none := hcell.hash
    rw [hperm] at hnone
    cases hnone
  | some g =>
    refine ⟨g, rfl, ?_⟩
    rcases hcell.slot with hslot | hgave
    · refine ⟨hslot, ?_, hfresh _ hslot.slot⟩
      obtain ⟨e', -, hperm'⟩ := hslot.hash
      rw [hperm] at hperm'
      cases hperm'
      cases hstarted : g.started with
      | false => rfl
      | true =>
        rw [hstarted] at hstate
        cases hstate
    · obtain ⟨h', e', -, hperm', hended, -⟩ := hgave.hash
      rw [hperm] at hperm'
      cases hperm'
      rcases hended with hsettled | hexpired
      · rw [hstate] at hsettled
        cases hsettled
      · rw [hstate] at hexpired
        cases hexpired

theorem tracks_started {g : Grant} (h : Tracks route now r p g) (hslot : HasSlot route r p g)
    (hlt : now < g.deadline) :
    Tracks route now (r.setState p .started) p { g with started := true } := by
  obtain ⟨e, he, hperm⟩ := hslot.hash
  have hnew : (r.setState p .started).permits p = some {
      value := { state := .started, routeId := some route.routeId }, expiresAt := some e } := by
    show Function.update r.permits p _ p = _
    rw [Function.update_self, hperm]
    rfl
  refine ⟨Or.inl ⟨hslot.slot, hslot.unsettled, e, he, hnew⟩, h.order, ?_, h.tpm, h.tokens⟩
  refine h.rpm.imp_right fun ⟨hnone, hwhy⟩ => ⟨hnone, ?_⟩
  rcases hwhy with hle | ⟨-, -, hle⟩
  · exact Or.inl hle
  · lia

/-- The store after the permit is settled. -/
def release (r : Redis) (p : String) : Redis :=
  { r.setState p .settled with active := r.active.erase p }

theorem release_other {q : String} (h : p ≠ q) (r : Redis) : SameAt p r (r.release q) :=
  ⟨by
    show (r.active.erase q).find? p = _
    rw [Table.find?_erase, if_neg h], Function.update_of_ne h _ _, rfl, rfl, rfl⟩

theorem tracks_release {g : Grant} (h : Tracks route now r p g)
    (hfresh : ∀ d, r.active.find? p = some (p, d) → now < d) :
    Tracks route now (r.release p) p
      (if now < g.deadline then { g with settled := true } else g) := by
  have hfree : (r.release p).active.find? p = none := by
    show (r.active.erase p).find? p = none
    rw [Table.find?_erase, if_pos rfl]
  have horder := h.order
  rcases h.slot with hslot | hgave
  · have hlt := hfresh _ hslot.slot
    rw [if_pos hlt]
    obtain ⟨e, he, hperm⟩ := hslot.hash
    have hnew : (r.release p).permits p = some {
        value := { state := .settled, routeId := some route.routeId }, expiresAt := some e } := by
      show Function.update r.permits p _ p = _
      rw [Function.update_self, hperm]
      rfl
    refine ⟨Or.inr ⟨hfree, Or.inl rfl, ⟨_, e, ?_, hnew, Or.inl rfl, fun hn => by cases hn⟩,
      fun _ hs => by cases hs⟩, h.order, ?_, h.tpm, h.tokens⟩
    · show g.at_ + rateWindow ≤ e
      lia
    · refine h.rpm.imp_right fun ⟨hnone, hwhy⟩ => ⟨hnone, ?_⟩
      rcases hwhy with hle | ⟨-, -, hle⟩
      · exact Or.inl hle
      · lia
  · -- settled before, or too late to count as settled
    have hsame : (if now < g.deadline then { g with settled := true } else g) = g := by
      split
      next hlt =>
        rcases hgave.ended with hsettled | hle
        · rw [← hsettled]
        · lia
      · rfl
    rw [hsame]
    obtain ⟨hash, e, he, hperm, -, hroute⟩ := hgave.hash
    have hnew : (r.release p).permits p = some {
        value := { state := .settled, routeId := hash.routeId }, expiresAt := some e } := by
      show Function.update r.permits p _ p = _
      rw [Function.update_self, hperm]
      rfl
    exact ⟨Or.inr ⟨hfree, hgave.ended, ⟨_, e, he, hnew, Or.inl rfl, hroute⟩, hgave.rolledBack⟩,
      h.order, h.rpm, h.tpm, h.tokens⟩

end Redis

/-! ## The grants -/

theorem permit_of_lastGrant {grants : List Grant} {p : String} {g : Grant}
    (h : lastGrant grants p = some g) : g.permit = p := by
  unfold lastGrant at h
  simpa using List.find?_some h

theorem lastGrant_onLast_self {p : String} {f : Grant → Grant} (hf : ∀ g, (f g).permit = g.permit) :
    ∀ grants, lastGrant (onLast p f grants) p = (lastGrant grants p).map f
  | [] => rfl
  | g :: gs => by
    unfold onLast lastGrant
    by_cases hp : g.permit = p
    · rw [if_pos hp, List.find?_cons_of_pos (by simpa [hf] using hp),
        List.find?_cons_of_pos (by simpa using hp)]
      rfl
    · rw [if_neg hp, List.find?_cons_of_neg (by simpa using hp),
        List.find?_cons_of_neg (by simpa using hp)]
      exact lastGrant_onLast_self hf gs

theorem lastGrant_onLast_ne {p q : String} (h : p ≠ q) {f : Grant → Grant}
    (hf : ∀ g, (f g).permit = g.permit) :
    ∀ grants, lastGrant (onLast q f grants) p = lastGrant grants p
  | [] => rfl
  | g :: gs => by
    unfold onLast lastGrant
    by_cases hq : g.permit = q
    · have hp : g.permit ≠ p := fun he => h (he.symm.trans hq)
      rw [if_pos hq, List.find?_cons_of_neg (by simpa [hf] using hp),
        List.find?_cons_of_neg (by simpa using hp)]
    · rw [if_neg hq]
      by_cases hp : g.permit = p
      · rw [List.find?_cons_of_pos (by simpa using hp), List.find?_cons_of_pos (by simpa using hp)]
      · rw [List.find?_cons_of_neg (by simpa using hp), List.find?_cons_of_neg (by simpa using hp)]
        exact lastGrant_onLast_ne h hf gs

/-- A changed grant was the last one of its permit. -/
theorem mem_onLast {p : String} {f : Grant → Grant} {g : Grant} :
    ∀ grants, g ∈ onLast p f grants → g ∈ grants ∨ ∃ g₀, lastGrant grants p = some g₀ ∧ g = f g₀
  | [], h => Or.inl h
  | g' :: gs, h => by
    unfold onLast at h
    by_cases hp : g'.permit = p
    · rw [if_pos hp] at h
      rcases List.mem_cons.mp h with rfl | hmem
      · exact Or.inr ⟨g', List.find?_cons_of_pos (by simpa using hp), rfl⟩
      · exact Or.inl (List.mem_cons_of_mem _ hmem)
    · rw [if_neg hp] at h
      rcases List.mem_cons.mp h with rfl | hmem
      · exact Or.inl List.mem_cons_self
      · rcases mem_onLast gs hmem with hold | ⟨g₀, hlast, rfl⟩
        · exact Or.inl (List.mem_cons_of_mem _ hold)
        · refine Or.inr ⟨g₀, ?_, rfl⟩
          exact (List.find?_cons_of_neg (by simpa using hp)).trans hlast

theorem countP_onLast {p : String} {f : Grant → Grant} {q : Grant → Bool}
    (hq : ∀ g, g.permit = p → q (f g) = q g) :
    ∀ grants, (onLast p f grants).countP q = grants.countP q
  | [] => rfl
  | g :: gs => by
    unfold onLast
    by_cases hp : g.permit = p
    · rw [if_pos hp, List.countP_cons, List.countP_cons, hq g hp]
    · rw [if_neg hp, List.countP_cons, List.countP_cons, countP_onLast hq gs]

theorem countP_onLast_new {p : String} {f : Grant → Grant} {q : Grant → Bool} {g₀ : Grant}
    (hold : q g₀ = false) (hnew : q (f g₀) = true) :
    ∀ grants, lastGrant grants p = some g₀ →
      (onLast p f grants).countP q = grants.countP q + 1
  | g :: gs, hlast => by
    unfold onLast
    unfold lastGrant at hlast
    by_cases hp : g.permit = p
    · rw [List.find?_cons_of_pos (by simpa using hp)] at hlast
      cases hlast
      rw [if_pos hp, List.countP_cons_of_pos hnew, List.countP_cons_of_neg (by simp [hold])]
    · rw [List.find?_cons_of_neg (by simpa using hp)] at hlast
      rw [if_neg hp, List.countP_cons, List.countP_cons, countP_onLast_new hold hnew gs hlast]
      lia

/-- Of the grants of one permit, all but the last are over. -/
def OnlyLast (now : Time) (grants : List Grant) : Prop :=
  grants.Pairwise fun newer older => newer.permit = older.permit → older.Over now

theorem Grant.Over.wait {now : Time} {g : Grant} (t : Time) (h : g.Over now) : g.Over (now + t) :=
  ⟨by have := h.1; lia, h.2.imp_right fun hle => by lia⟩

theorem OnlyLast.wait {now : Time} {grants : List Grant} (t : Time) (h : OnlyLast now grants) :
    OnlyLast (now + t) grants :=
  List.Pairwise.imp (fun hover hp => (hover hp).wait t) h

theorem OnlyLast.onLast {now : Time} {p : String} {f : Grant → Grant}
    (hf : ∀ g, (f g).permit = g.permit) :
    ∀ {grants}, OnlyLast now grants → OnlyLast now (onLast p f grants)
  | [], h => h
  | g :: gs, h => by
    obtain ⟨hhead, htail⟩ := List.pairwise_cons.mp h
    unfold AgentRuntime.onLast
    by_cases hp : g.permit = p
    · rw [if_pos hp]
      exact List.pairwise_cons.mpr
        ⟨fun older hmem hperm => hhead older hmem ((hf g).symm.trans hperm), htail⟩
    · rw [if_neg hp]
      refine List.pairwise_cons.mpr ⟨fun older hmem hperm => ?_, OnlyLast.onLast hf htail⟩
      rcases mem_onLast gs hmem with hold | ⟨g₀, hlast, rfl⟩
      · exact hhead older hold hperm
      · rw [hf, permit_of_lastGrant hlast] at hperm
        exact absurd hperm hp

theorem lastGrant_of_mem {now : Time} {g : Grant} : ∀ {grants}, OnlyLast now grants → g ∈ grants →
    ¬ g.Over now → lastGrant grants g.permit = some g
  | g' :: gs, h, hmem, hnot => by
    obtain ⟨hhead, htail⟩ := List.pairwise_cons.mp h
    rcases List.mem_cons.mp hmem with rfl | hmem'
    · exact List.find?_cons_of_pos (by simp)
    · have hne : g'.permit ≠ g.permit := fun he => hnot (hhead g hmem' he)
      exact (List.find?_cons_of_neg (by simpa using hne)).trans
        (lastGrant_of_mem htail hmem' hnot)

/-- Grants that are not over have different permits. -/
theorem nodup_permits {now : Time} {q : Grant → Bool} :
    ∀ {grants}, OnlyLast now grants → (∀ g, q g = true → ¬ g.Over now) →
      ((grants.filter q).map (·.permit)).Nodup
  | [], _, _ => List.nodup_nil
  | g :: gs, h, hq => by
    obtain ⟨hhead, htail⟩ := List.pairwise_cons.mp h
    by_cases hg : q g = true
    · rw [List.filter_cons_of_pos hg, List.map_cons, List.nodup_cons]
      refine ⟨fun hmem => ?_, nodup_permits htail hq⟩
      obtain ⟨g', hg', hperm⟩ := List.mem_map.mp hmem
      obtain ⟨hmem', hqg'⟩ := List.mem_filter.mp hg'
      exact hq g' hqg' (hhead g' hmem' hperm.symm)
    · rw [List.filter_cons_of_neg hg]
      exact nodup_permits htail hq

theorem Grant.Live.not_over {now : Time} {g : Grant} (h : g.Live now) : ¬ g.Over now := by
  rintro ⟨-, hsettled | hle⟩
  · rw [h.1] at hsettled
    cases hsettled
  · have := h.2
    lia

theorem Grant.Charged.not_over {now : Time} {g : Grant} (h : g.Charged now) : ¬ g.Over now := by
  rintro ⟨hle, -⟩
  have := h.1
  lia

/-! ## The invariant -/

/-- What holds between the store and the grants. -/
structure Linked (route : ModelRoute) (s : TrafficState) : Prop where
  cells : ∀ p, Redis.Cell route s.clock s.redis p (lastGrant s.grants p)
  onlyLast : OnlyLast s.clock s.grants
  blocked : s.redis.blocked = none ∧ s.cooldown = 0 ∨
    ∃ e, s.redis.blocked = some { value := s.cooldown, expiresAt := some e } ∧ s.cooldown ≤ e

/-- The live permits and the charges of the last minute are within the
limits of the route. -/
structure Within (route : ModelRoute) (now : Time) (grants : List Grant) : Prop where
  slots : (grants.filter (fun g => decide (g.Live now))).length ≤ route.maxConcurrency
  rpm : (grants.filter (fun g => decide (g.Charged now))).length ≤ route.rpmLimit
  tpm : ((grants.filter (fun g => decide (g.Charged now))).map (·.tokens)).sum ≤ route.tpmLimit

section

variable {route : ModelRoute} {s : TrafficState} {now : Time} {r : Redis} {grants : List Grant}

/-- Each live permit has its slot. -/
theorem live_le_slots (hcells : ∀ p, Redis.Cell route now r p (lastGrant grants p))
    (honly : OnlyLast now grants) :
    (grants.filter (fun g => decide (g.Live now))).length ≤ r.active.rows.length := by
  have hnodup := nodup_permits (q := fun g => decide (g.Live now)) honly
    (fun g hg => (of_decide_eq_true hg : g.Live now).not_over)
  have hkeys : ∀ p ∈ (grants.filter (fun g => decide (g.Live now))).map (·.permit),
      p ∈ r.active.rows.map Prod.fst := fun p hp => by
    obtain ⟨g, hg, rfl⟩ := List.mem_map.mp hp
    obtain ⟨hmem, hlive⟩ := List.mem_filter.mp hg
    have hlive : g.Live now := of_decide_eq_true hlive
    have hcell := hcells g.permit
    rw [lastGrant_of_mem honly hmem hlive.not_over] at hcell
    rcases hcell.slot with hslot | hgave
    · exact List.mem_map.mpr ⟨_, Table.mem_of_find? hslot.slot, rfl⟩
    · rcases hgave.ended with hsettled | hle
      · rw [hlive.1] at hsettled
        cases hsettled
      · have := hlive.2
        lia
  have hlength := (List.subperm_of_subset hnodup hkeys).length_le
  rw [List.length_map, List.length_map] at hlength
  exact hlength

/-- Each charge has its entry in the windows. -/
theorem rpm_of_charged (hcells : ∀ p, Redis.Cell route now r p (lastGrant grants p))
    (honly : OnlyLast now grants) {g : Grant} (hmem : g ∈ grants) (hcharged : g.Charged now) :
    r.rpm.find? g.permit = some (g.permit, g.at_) ∧ r.tpm.find? g.permit = some (g.permit, g.at_) ∧
      r.tokenAmounts.find? g.permit = some (g.permit, g.tokens) := by
  have hcell := hcells g.permit
  rw [lastGrant_of_mem honly hmem hcharged.not_over] at hcell
  have htpm := hcell.tpm
  have htokens := hcell.tokens
  rcases hcell.rpm with hrpm | ⟨-, hle | hback⟩
  · rw [hrpm] at htpm htokens
    exact ⟨hrpm, htpm, htokens⟩
  · have := hcharged.1
    lia
  · exact absurd hback hcharged.2

theorem charged_le_rpm (hcells : ∀ p, Redis.Cell route now r p (lastGrant grants p))
    (honly : OnlyLast now grants) :
    (grants.filter (fun g => decide (g.Charged now))).length ≤ r.rpm.rows.length := by
  have hnodup := nodup_permits (q := fun g => decide (g.Charged now)) honly
    (fun g hg => (of_decide_eq_true hg : g.Charged now).not_over)
  have hkeys : ∀ p ∈ (grants.filter (fun g => decide (g.Charged now))).map (·.permit),
      p ∈ r.rpm.rows.map Prod.fst := fun p hp => by
    obtain ⟨g, hg, rfl⟩ := List.mem_map.mp hp
    obtain ⟨hmem, hcharged⟩ := List.mem_filter.mp hg
    have hrpm := (rpm_of_charged hcells honly hmem (of_decide_eq_true hcharged)).1
    exact List.mem_map.mpr ⟨_, Table.mem_of_find? hrpm, rfl⟩
  have hlength := (List.subperm_of_subset hnodup hkeys).length_le
  rw [List.length_map, List.length_map] at hlength
  exact hlength

theorem charged_le_tokens (hcells : ∀ p, Redis.Cell route now r p (lastGrant grants p))
    (honly : OnlyLast now grants) :
    ((grants.filter (fun g => decide (g.Charged now))).map (·.tokens)).sum ≤ r.usedTokens := by
  have hnodup := nodup_permits (q := fun g => decide (g.Charged now)) honly
    (fun g hg => (of_decide_eq_true hg : g.Charged now).not_over)
  have hpairs : ((grants.filter (fun g => decide (g.Charged now))).map
      (fun g => (g.permit, g.tokens))).Nodup :=
    List.Nodup.of_map Prod.fst (by rw [List.map_map]; exact hnodup)
  have hentries : ∀ x ∈ (grants.filter (fun g => decide (g.Charged now))).map
      (fun g => (g.permit, g.tokens)), x ∈ r.tokenAmounts.rows := fun x hx => by
    obtain ⟨g, hg, rfl⟩ := List.mem_map.mp hx
    obtain ⟨hmem, hcharged⟩ := List.mem_filter.mp hg
    exact Table.mem_of_find? (rpm_of_charged hcells honly hmem (of_decide_eq_true hcharged)).2.2
  obtain ⟨l, hperm, hsub⟩ := List.subperm_of_subset hpairs hentries
  have hsum := (hperm.map Prod.snd).sum_nat
  rw [List.map_map] at hsum
  calc ((grants.filter (fun g => decide (g.Charged now))).map (·.tokens)).sum
      = (l.map Prod.snd).sum := hsum.symm
    _ ≤ (r.tokenAmounts.rows.map Prod.snd).sum := (hsub.map Prod.snd).sum_le_sum (by simp)

end

/-! ## The links, operation by operation -/

namespace Linked

variable {route : ModelRoute} {s : TrafficState}

theorem init (route : ModelRoute) : Linked route {} :=
  ⟨fun _ => ⟨rfl, rfl, rfl, rfl, rfl⟩, List.Pairwise.nil, Or.inl ⟨rfl, rfl⟩⟩

theorem wait (t : Time) (h : Linked route s) : Linked route { s with clock := s.clock + t } :=
  ⟨fun p => (h.cells p).wait t, h.onlyLast.wait t, h.blocked⟩

theorem reap (h : Linked route s) :
    Linked route { s with redis := s.redis.reapExpiredPermits s.clock } :=
  ⟨fun p => (Redis.cell_reapExpiredPermits (h.cells p)).1, h.onlyLast, by
    rw [Redis.blocked_reapExpiredPermits]
    exact h.blocked⟩

theorem trim (h : Linked route s) : Linked route { s with redis := s.redis.trim s.clock } :=
  ⟨fun p => Redis.cell_trim (h.cells p), h.onlyLast, h.blocked⟩

/-- A permit is granted whose earlier grants are over. -/
theorem grant (h : Linked route s) (p : String) (tokens : Nat)
    (hover : ∀ g ∈ s.grants, g.permit = p → g.Over s.clock) :
    Linked route { s with
      redis := s.redis.grant route s.clock p tokens
      grants := {
        permit := p
        at_ := s.clock
        deadline := s.clock + route.permitTtl
        tokens := tokens } :: s.grants } := by
  refine ⟨fun q => ?_, List.pairwise_cons.mpr ⟨fun g hg hp => hover g hg hp.symm, h.onlyLast⟩,
    h.blocked⟩
  by_cases hq : q = p
  · subst hq
    have hlast : lastGrant ({
        permit := q
        at_ := s.clock
        deadline := s.clock + route.permitTtl
        tokens := tokens } :: s.grants) q = some {
          permit := q
          at_ := s.clock
          deadline := s.clock + route.permitTtl
          tokens := tokens } := List.find?_cons_of_pos (by simp)
    rw [hlast]
    exact Redis.tracks_grant route s.clock s.redis q tokens
  · have hlast : lastGrant ({
        permit := p
        at_ := s.clock
        deadline := s.clock + route.permitTtl
        tokens := tokens } :: s.grants) q = lastGrant s.grants q :=
      List.find?_cons_of_neg (by simpa using fun he => hq he.symm)
    rw [hlast]
    exact (h.cells q).congr (Redis.grant_other hq route s.clock s.redis tokens)

/-- The last grant of a permit and its cell change together. -/
theorem onLast {p : String} {f : Grant → Grant} {r : Redis} (h : Linked route s)
    (hf : ∀ g, (f g).permit = g.permit)
    (hother : ∀ q, q ≠ p → Redis.SameAt q s.redis r)
    (hself : Redis.Cell route s.clock r p ((lastGrant s.grants p).map f))
    (hblocked : r.blocked = none ∧ s.cooldown = 0 ∨
      ∃ e, r.blocked = some { value := s.cooldown, expiresAt := some e } ∧ s.cooldown ≤ e) :
    Linked route { s with redis := r, grants := AgentRuntime.onLast p f s.grants } := by
  refine ⟨fun q => ?_, h.onlyLast.onLast hf, hblocked⟩
  by_cases hq : q = p
  · subst hq
    dsimp only
    rw [lastGrant_onLast_self hf]
    exact hself
  · dsimp only
    rw [lastGrant_onLast_ne hq hf]
    exact (h.cells q).congr (hother q hq)

/-- Only a permit all of whose grants are over has no hash with a route. -/
theorem over_of_not_held (h : Linked route s) {p : String}
    (hread : (s.redis.hash s.clock p).bind (·.routeId) = none) :
    ∀ g ∈ s.grants, g.permit = p → g.Over s.clock := by
  rintro g hg rfl
  by_contra hnot
  have hcell := h.cells g.permit
  rw [lastGrant_of_mem h.onlyLast hg hnot] at hcell
  have horder := hcell.order
  unfold Redis.hash at hread
  rcases hcell.slot with hslot | hgave
  · obtain ⟨e, he, hperm⟩ := hslot.hash
    rw [hperm, get_until] at hread
    split at hread
    · cases hread
    · exact hnot ⟨by lia, Or.inr (by lia)⟩
  · obtain ⟨hash, e, he, hperm, -, hroute⟩ := hgave.hash
    rw [hperm, get_until] at hread
    refine hnot ⟨?_, hgave.ended⟩
    split at hread
    · exact hroute hread
    · lia

/-- Such a permit has no entry left in the windows once they are trimmed. -/
theorem windows_of_over (h : Linked route s) {p : String}
    (hover : ∀ g ∈ s.grants, g.permit = p → g.Over s.clock) :
    (s.redis.trim s.clock).tokenAmounts.find? p = none := by
  have hcell := h.cells p
  cases hlast : lastGrant s.grants p with
  | none =>
    rw [hlast] at hcell
    exact (Redis.cell_trim hcell).tokens
  | some g =>
    rw [hlast] at hcell
    have hle := (hover g (List.mem_of_find?_eq_some hlast) (permit_of_lastGrant hlast)).1
    rcases Redis.trim_windows hcell with ⟨-, -, htokens, hno | hlt⟩ | ⟨-, -, htokens, -⟩
    · rw [htokens, hcell.tokens, hno]
      rfl
    · lia
    · exact htokens

end Linked

/-! ## What the script can do -/

namespace Redis

/-- Every way the script can end, for a route that has the store to
itself. -/
inductive ScriptStep (route : ModelRoute) (r : Redis) (now : Time) :
    TrafficOp → Redis × PermitStatus × Time → Prop
  | refused {permit : String} {tokens : Nat} {status : PermitStatus} {detail : Time}
      (h : status = .acquired → detail = 0) (hfull : status ≠ .concurrencyExceeded)
      (hrpm : status ≠ .rpmExceeded) (htpm : status ≠ .tpmExceeded) :
      ScriptStep route r now (.acquire permit tokens) (r, status, detail)
  | noSlot {permit : String} {tokens : Nat} :
      ScriptStep route r now (.acquire permit tokens)
        (r.reapExpiredPermits now, .concurrencyExceeded, 0)
  | noRate {permit : String} {tokens : Nat} {status : PermitStatus}
      (h : status = .rpmExceeded ∨ status = .tpmExceeded) :
      ScriptStep route r now (.acquire permit tokens)
        ((r.reapExpiredPermits now).trim now, status, 0)
  | granted {permit : String} {tokens : Nat}
      (hheld : (r.hash now permit).bind (·.routeId) = none)
      (hslots : (r.reapExpiredPermits now).active.rows.length < route.maxConcurrency)
      (hrpm : ((r.reapExpiredPermits now).trim now).rpm.rows.length < route.rpmLimit)
      (htpm : ((r.reapExpiredPermits now).trim now).usedTokens + tokens ≤ route.tpmLimit) :
      ScriptStep route r now (.acquire permit tokens)
        (((r.reapExpiredPermits now).trim now).grant route now permit tokens, .acquired,
          route.permitTtl)
  | notStarted {permit : String} {status : PermitStatus} (h : status ≠ .started) :
      ScriptStep route r now (.started permit) (r.reapExpiredPermits now, status, 0)
  | started {permit : String} {h : PermitHash}
      (hread : (r.reapExpiredPermits now).hash now permit = some h) (hstate : h.state = .acquired) :
      ScriptStep route r now (.started permit)
        ((r.reapExpiredPermits now).setState permit .started, .started, 0)
  | notSettled {permit : String} {retryAfter : Time} {status : PermitStatus}
      (h : status ≠ .settled) :
      ScriptStep route r now (.settle permit retryAfter) (r.reapExpiredPermits now, status, 0)
  | settled {permit : String} :
      ScriptStep route r now (.settle permit 0)
        ((r.reapExpiredPermits now).release permit, .settled, 0)
  | blocks {permit : String} {retryAfter : Time} (h : 0 < retryAfter) :
      ScriptStep route r now (.settle permit retryAfter)
        ({ (r.reapExpiredPermits now).release permit with blocked := some {
            value := r.cooldown now retryAfter
            expiresAt := some (now + ceilSeconds (r.cooldown now retryAfter - now)) } },
          .settled, 0)
  | circuit {op : TrafficOp} {r' : Redis} {reply : PermitStatus × Time}
      (hop : op = .circuitPreflight ∨ op = .circuitFailure ∨ op = .circuitSuccess)
      (hsame : ∀ p, SameAt p r r') (hblocked : r'.blocked = r.blocked) :
      ScriptStep route r now op (r', reply)

theorem scriptStep_acquire (route : ModelRoute) (r : Redis) (now : Time) (permit : String)
    (tokens : Nat) :
    ScriptStep route r now (.acquire permit tokens) (r.acquire route now permit tokens) := by
  unfold acquire
  dsimp only
  split
  · exact .refused (fun h => by cases h) (by decide) (by decide) (by decide)
  · cases hread : (r.hash now permit).bind
        (fun h => h.routeId.map fun routeId => (routeId, h.state)) with
    | some held =>
      obtain ⟨routeId, state⟩ := held
      dsimp only
      split
      · exact .refused (fun h => by cases h) (by decide) (by decide) (by decide)
      · refine .refused (fun _ => rfl) ?_ ?_ ?_ <;> cases state <;> decide
    | none =>
      have hheld : (r.hash now permit).bind (·.routeId) = none := by
        cases hhash : r.hash now permit with
        | none => rfl
        | some h =>
          rw [hhash] at hread
          simpa using hread
      dsimp only
      split
      · exact .refused (fun h => by cases h) (by decide) (by decide) (by decide)
      · unfold checkLimits
        dsimp only
        split
        · exact .noSlot
        · split
          · exact .noRate (Or.inl rfl)
          · split
            · exact .noRate (Or.inr rfl)
            · exact .granted hheld (by lia) (by lia) (by lia)

theorem scriptStep_started (route : ModelRoute) (r : Redis) (now : Time) (permit : String) :
    ScriptStep route r now (.started permit) (r.started route now permit) := by
  unfold started
  dsimp only
  cases hread : (r.reapExpiredPermits now).hash now permit with
  | none => exact .notStarted (by decide)
  | some h =>
    dsimp only
    split
    · exact .notStarted (by decide)
    · cases hstate : h.state with
      | acquired => exact .started hread hstate
      | started => exact .notStarted (by decide)
      | settled => exact .notStarted (by decide)
      | expired => exact .notStarted (by decide)

theorem scriptStep_settle (route : ModelRoute) (r : Redis) (now : Time) (permit : String)
    (retryAfter : Time) :
    ScriptStep route r now (.settle permit retryAfter) (r.settle route now permit retryAfter) := by
  unfold settle
  dsimp only
  cases hread : (r.reapExpiredPermits now).hash now permit with
  | none => exact .notSettled (by decide)
  | some h =>
    dsimp only
    split
    · exact .notSettled (by decide)
    · split
      · exact .notSettled (by decide)
      · split
        next hlt =>
          have hcooldown : ((r.reapExpiredPermits now).release permit).cooldown now retryAfter
              = r.cooldown now retryAfter := by
            have hblocked : ((r.reapExpiredPermits now).release permit).blocked = r.blocked :=
              blocked_reapExpiredPermits now r
            unfold cooldown
            rw [hblocked]
          show ScriptStep route r now _ ({ (r.reapExpiredPermits now).release permit with
            blocked := some {
              value := ((r.reapExpiredPermits now).release permit).cooldown now retryAfter
              expiresAt := some (now + ceilSeconds
                (((r.reapExpiredPermits now).release permit).cooldown now retryAfter - now)) } },
            .settled, 0)
          rw [hcooldown]
          exact .blocks hlt
        next hlt =>
          have hzero : retryAfter = 0 := by lia
          rw [hzero]
          exact .settled

/-- The inversion of the script. -/
theorem scriptStep (route : ModelRoute) (r : Redis) (now : Time) (op : TrafficOp) :
    ScriptStep route r now op (r.permitScript route now op) := by
  cases op with
  | acquire permit tokens => exact scriptStep_acquire route r now permit tokens
  | started permit => exact scriptStep_started route r now permit
  | settle permit retryAfter => exact scriptStep_settle route r now permit retryAfter
  | circuitPreflight =>
    show ScriptStep route r now _ (r.circuitPreflight route now)
    unfold circuitPreflight
    dsimp only
    split
    · exact .circuit (Or.inl rfl) (fun p => SameAt.refl p r) rfl
    · exact .circuit (Or.inl rfl) (fun p => SameAt.refl p r) rfl
  | circuitFailure =>
    show ScriptStep route r now _ (r.recordCircuitFailure route now)
    unfold recordCircuitFailure
    dsimp only
    split
    · exact .circuit (Or.inr (Or.inl rfl)) (fun p => SameAt.refl p r) rfl
    · split
      · exact .circuit (Or.inr (Or.inl rfl)) (fun _ => ⟨rfl, rfl, rfl, rfl, rfl⟩) rfl
      · exact .circuit (Or.inr (Or.inl rfl)) (fun _ => ⟨rfl, rfl, rfl, rfl, rfl⟩) rfl
  | circuitSuccess => exact .circuit (Or.inr (Or.inr rfl)) (fun _ => ⟨rfl, rfl, rfl, rfl, rfl⟩) rfl

end Redis

/-! ## The promises -/

section

variable {route : ModelRoute} {now : Time} {grants : List Grant}

/-- Grants that change so that they still count where they counted. -/
theorem sublist_onLast {p : String} {f : Grant → Grant} {q : Grant → Bool} :
    ∀ grants : List Grant,
      (∀ g, lastGrant grants p = some g → (q (f g) = true → q g = true) ∧ (f g).tokens = g.tokens) →
      (((onLast p f grants).filter q).map (·.tokens)).Sublist ((grants.filter q).map (·.tokens))
  | [], _ => List.Sublist.refl _
  | g :: gs, h => by
    unfold onLast
    by_cases hp : g.permit = p
    · obtain ⟨hq, htokens⟩ := h g (List.find?_cons_of_pos (by simpa using hp))
      rw [if_pos hp, List.filter_cons, List.filter_cons]
      by_cases hfg : q (f g) = true
      · rw [if_pos hfg, if_pos (hq hfg), List.map_cons, List.map_cons, htokens]
      · rw [if_neg hfg]
        split
        · exact List.sublist_cons_self _ _
        · exact List.Sublist.refl _
    · have ih := sublist_onLast gs fun g' hg' =>
        h g' ((List.find?_cons_of_neg (by simpa using hp)).trans hg')
      rw [if_neg hp, List.filter_cons, List.filter_cons]
      split
      · exact ih.cons_cons _
      · exact ih

theorem within_of_sublist {now' : Time} {grants' : List Grant} (h : Within route now grants)
    (hlive : ((grants'.filter (fun g => decide (g.Live now'))).map (·.tokens)).Sublist
      ((grants.filter (fun g => decide (g.Live now))).map (·.tokens)))
    (hcharged : ((grants'.filter (fun g => decide (g.Charged now'))).map (·.tokens)).Sublist
      ((grants.filter (fun g => decide (g.Charged now))).map (·.tokens))) :
    Within route now' grants' := by
  refine ⟨?_, ?_, Nat.le_trans (hcharged.sum_le_sum (by simp)) h.tpm⟩
  · have := hlive.length_le
    rw [List.length_map, List.length_map] at this
    exact Nat.le_trans this h.slots
  · have := hcharged.length_le
    rw [List.length_map, List.length_map] at this
    exact Nat.le_trans this h.rpm

/-- Permits expire and leave the window as time passes. -/
theorem Within.wait (t : Time) (h : Within route now grants) : Within route (now + t) grants := by
  refine within_of_sublist h ?_ ?_
  · refine (List.monotone_filter_right _ fun g hg => ?_).map _
    obtain ⟨hsettled, hlt⟩ : g.Live (now + t) := of_decide_eq_true hg
    exact decide_eq_true ⟨hsettled, by lia⟩
  · refine (List.monotone_filter_right _ fun g hg => ?_).map _
    obtain ⟨hlt, hback⟩ : g.Charged (now + t) := of_decide_eq_true hg
    refine decide_eq_true ⟨by lia, fun ⟨hstarted, hsettled, hle⟩ => hback ⟨hstarted, hsettled, ?_⟩⟩
    lia

theorem Within.start {p : String} (h : Within route now grants)
    (hlt : ∀ g, lastGrant grants p = some g → now < g.deadline) :
    Within route now (onLast p (fun g => { g with started := true }) grants) := by
  refine within_of_sublist h (sublist_onLast _ fun g hg => ⟨id, rfl⟩)
    (sublist_onLast _ fun g hg => ⟨fun hq => ?_, rfl⟩)
  have hq : Grant.Charged now { g with started := true } := of_decide_eq_true hq
  refine decide_eq_true ⟨hq.1, fun hback => ?_⟩
  have := hlt g hg
  have := hback.2.2
  lia

theorem Within.settle {p : String} (h : Within route now grants) :
    Within route now
      (onLast p (fun g => if now < g.deadline then { g with settled := true } else g) grants) := by
  refine within_of_sublist h (sublist_onLast _ fun g hg => ⟨fun hq => ?_, ?_⟩)
    (sublist_onLast _ fun g hg => ⟨fun hq => ?_, ?_⟩)
  · split at hq
    · have hq : Grant.Live now { g with settled := true } := of_decide_eq_true hq
      cases hq.1
    · exact hq
  · split <;> rfl
  · split at hq
    next hlt =>
      have hq : Grant.Charged now { g with settled := true } := of_decide_eq_true hq
      refine decide_eq_true ⟨hq.1, fun hback => ?_⟩
      have := hback.2.2
      lia
    · exact hq
  · split <;> rfl

end

/-- The operation has cleaned the expired slots up. -/
def Reaps : TrafficOp → PermitStatus × Time → Prop
  | .acquire _ _, (status, detail) =>
    status = .concurrencyExceeded ∨ status = .rpmExceeded ∨ status = .tpmExceeded ∨
      status = .acquired ∧ detail ≠ 0
  | .started _, _ => True
  | .settle _ _, _ => True
  | _, _ => False

/-- The grant has its entry in a rate window. -/
def InWindow (t : ZSet) (now : Time) (g : Grant) : Prop :=
  t.find? g.permit = some (g.permit, g.at_) ∧ now < g.at_ + rateWindow

/-- What one operation on the route promises. -/
structure Promises (route : ModelRoute) (s : TrafficState) (e : TrafficEvent) : Prop where
  within : Within route (trafficStep route s e).clock (trafficStep route s e).grants
  sameKeys : ∀ p, (trafficStep route s e).redis.tokenAmounts.find? p = none ↔
    (trafficStep route s e).redis.tpm.find? p = none
  grantsAnew : ∀ g, (trafficStep route s e).grants = g :: s.grants →
    ∀ g' ∈ s.grants, g'.permit = g.permit → g'.Over (trafficStep route s e).clock
  startsOnce : ∀ p, e.op = .started p → replyTo route s e = .started →
    ∃ g, lastGrant s.grants p = some g ∧ g.started = false ∧ g.settled = false ∧
      (trafficStep route s e).clock < g.deadline ∧
      lastGrant (trafficStep route s e).grants p = some { g with started := true }
  rollsBack : Reaps e.op (s.redis.permitScript route (s.clock + e.elapsed) e.op).2 →
    ∀ g ∈ (trafficStep route s e).grants, g.RolledBack (trafficStep route s e).clock →
      ¬ InWindow (trafficStep route s e).redis.rpm (trafficStep route s e).clock g ∧
      ¬ InWindow (trafficStep route s e).redis.tpm (trafficStep route s e).clock g
  keepsCharge : ∀ g ∈ (trafficStep route s e).grants, g.Charged (trafficStep route s e).clock →
    InWindow (trafficStep route s e).redis.rpm (trafficStep route s e).clock g ∧
    InWindow (trafficStep route s e).redis.tpm (trafficStep route s e).clock g ∧
    (trafficStep route s e).redis.tokenAmounts.find? g.permit = some (g.permit, g.tokens)
  cooldown : s.cooldown ≤ (trafficStep route s e).cooldown
  inForce : (trafficStep route s e).clock < (trafficStep route s e).cooldown →
    get (trafficStep route s e).clock (trafficStep route s e).redis.blocked
      = some (trafficStep route s e).cooldown

namespace Linked

variable {route : ModelRoute} {s : TrafficState}

theorem sameKeys (h : Linked route s) (p : String) :
    s.redis.tokenAmounts.find? p = none ↔ s.redis.tpm.find? p = none := by
  have hcell := h.cells p
  cases hlast : lastGrant s.grants p with
  | none =>
    rw [hlast] at hcell
    exact ⟨fun _ => hcell.tpm, fun _ => hcell.tokens⟩
  | some g =>
    rw [hlast] at hcell
    rw [hcell.tokens, hcell.tpm]
    simp

theorem keepsCharge (h : Linked route s) {g : Grant} (hmem : g ∈ s.grants)
    (hcharged : g.Charged s.clock) :
    InWindow s.redis.rpm s.clock g ∧ InWindow s.redis.tpm s.clock g ∧
      s.redis.tokenAmounts.find? g.permit = some (g.permit, g.tokens) := by
  obtain ⟨hrpm, htpm, htokens⟩ := rpm_of_charged h.cells h.onlyLast hmem hcharged
  exact ⟨⟨hrpm, hcharged.1⟩, ⟨htpm, hcharged.1⟩, htokens⟩

/-- Once no slot is left that has expired, a grant that is rolled back has
left the windows. -/
theorem rollsBack (h : Linked route s)
    (hfresh : ∀ p d, s.redis.active.find? p = some (p, d) → s.clock < d) {g : Grant}
    (hmem : g ∈ s.grants) (hback : g.RolledBack s.clock) :
    ¬ InWindow s.redis.rpm s.clock g ∧ ¬ InWindow s.redis.tpm s.clock g := by
  have hrpm : ¬ InWindow s.redis.rpm s.clock g := by
    rintro ⟨hrpm, hlt⟩
    have hnot : ¬ g.Over s.clock := fun hover => by
      have := hover.1
      lia
    have hcell := h.cells g.permit
    rw [lastGrant_of_mem h.onlyLast hmem hnot] at hcell
    obtain ⟨hstarted, hsettled, hle⟩ := hback
    rcases hcell.slot with hslot | hgave
    · have := hfresh _ _ hslot.slot
      lia
    · rcases hgave.rolledBack hstarted hsettled with hnone | hold
      · rw [hrpm] at hnone
        cases hnone
      · lia
  refine ⟨hrpm, fun ⟨htpm, hlt⟩ => hrpm ⟨?_, hlt⟩⟩
  have hcell := h.cells g.permit
  have hnot : ¬ g.Over s.clock := fun hover => by
    have := hover.1
    lia
  rw [lastGrant_of_mem h.onlyLast hmem hnot] at hcell
  exact hcell.tpm.symm.trans htpm

theorem inForce (h : Linked route s) (hlt : s.clock < s.cooldown) :
    get s.clock s.redis.blocked = some s.cooldown := by
  rcases h.blocked with ⟨-, hzero⟩ | ⟨e, hblocked, hle⟩
  · lia
  · rw [hblocked, get_until, if_pos (by lia)]

/-- A new cooldown is no earlier than the last one. -/
theorem cooldown_le (h : Linked route s) (t : Time) :
    s.cooldown ≤ s.redis.cooldown s.clock t := by
  unfold Redis.cooldown
  rcases h.blocked with ⟨-, hzero⟩ | ⟨e, hblocked, hle⟩
  · lia
  · rw [hblocked, get_until]
    split
    · exact le_max_left _ _
    · exact le_max_of_le_right (by lia)

end Linked

/-- What an operation leaves, seen from the state it ran on. -/
structure Kept (route : ModelRoute) (s s' : TrafficState) (reaps : Prop) : Prop where
  linked : Linked route s'
  within : Within route s'.clock s'.grants
  cooldown : s.cooldown ≤ s'.cooldown
  fresh : reaps → ∀ p d, s'.redis.active.find? p = some (p, d) → s'.clock < d

namespace Linked

variable {route : ModelRoute} {s : TrafficState}

theorem reap_fresh (h : Linked route s) :
    ∀ p d, (s.redis.reapExpiredPermits s.clock).active.find? p = some (p, d) → s.clock < d :=
  fun p => (Redis.cell_reapExpiredPermits (h.cells p)).2

/-- A fresh permit, admitted within the limits. -/
theorem kept_grant (h : Linked route s) {p : String} {tokens : Nat}
    (hheld : (s.redis.hash s.clock p).bind (·.routeId) = none)
    (hslots : (s.redis.reapExpiredPermits s.clock).active.rows.length < route.maxConcurrency)
    (hrpm : ((s.redis.reapExpiredPermits s.clock).trim s.clock).rpm.rows.length < route.rpmLimit)
    (htpm : ((s.redis.reapExpiredPermits s.clock).trim s.clock).usedTokens + tokens
      ≤ route.tpmLimit) :
    Kept route s { s with
      redis := ((s.redis.reapExpiredPermits s.clock).trim s.clock).grant route s.clock p tokens
      grants := {
        permit := p
        at_ := s.clock
        deadline := s.clock + route.permitTtl
        tokens := tokens } :: s.grants } True := by
  have hover := h.over_of_not_held hheld
  have hlinked := h.reap.trim.grant p tokens hover
  have hnone := h.reap.windows_of_over hover
  have hpos := route.permitTtl_pos
  refine ⟨hlinked, ⟨?_, ?_, ?_⟩, Nat.le_refl _, fun _ q d hd => ?_⟩
  · refine Nat.le_trans (live_le_slots hlinked.cells hlinked.onlyLast) ?_
    exact Nat.le_trans (Table.length_upsert_le _ _) hslots
  · refine Nat.le_trans (charged_le_rpm hlinked.cells hlinked.onlyLast) ?_
    exact Nat.le_trans (Table.length_upsert_le _ _) hrpm
  · refine Nat.le_trans (charged_le_tokens hlinked.cells hlinked.onlyLast) ?_
    have hrows := Table.rows_upsert_of_none
      (a := (p, tokens)) (t := ((s.redis.reapExpiredPermits s.clock).trim s.clock).tokenAmounts)
      hnone
    show ((Table.upsert _ (p, tokens)).rows.map Prod.snd).sum ≤ _
    rw [hrows, List.map_append, List.sum_append]
    exact htpm
  · by_cases hq : q = p
    · subst hq
      have hself : (Table.upsert (s.redis.reapExpiredPermits s.clock).active
          (q, s.clock + route.permitTtl)).find? q = some (q, s.clock + route.permitTtl) :=
        (Table.find?_upsert _ (q, s.clock + route.permitTtl) q).trans (if_pos rfl)
      cases hself.symm.trans hd
      show s.clock < s.clock + route.permitTtl
      lia
    · have hother := (Redis.grant_other hq route s.clock
        ((s.redis.reapExpiredPermits s.clock).trim s.clock) tokens).active
      exact h.reap_fresh q d (hother.symm.trans hd)

/-- A permit that says acquired is started. -/
theorem kept_started (h : Linked route s) (hwithin : Within route s.clock s.grants) {p : String}
    {hash : PermitHash} (hread : (s.redis.reapExpiredPermits s.clock).hash s.clock p = some hash)
    (hstate : hash.state = .acquired) :
    (∃ g, lastGrant s.grants p = some g ∧ g.started = false ∧ g.settled = false ∧
      s.clock < g.deadline) ∧
    Kept route s { s with
      redis := (s.redis.reapExpiredPermits s.clock).setState p .started
      grants := AgentRuntime.onLast p (fun g => { g with started := true }) s.grants } True := by
  obtain ⟨g, hlast, hslot, hstarted, hlt⟩ :=
    Redis.tracks_of_acquired (h.reap.cells p) (h.reap_fresh p) hread hstate
  have hlast' : lastGrant s.grants p = some g := hlast
  refine ⟨⟨g, hlast, hstarted, hslot.unsettled, hlt⟩, ?_, ?_, Nat.le_refl _,
    fun _ q d hd => h.reap_fresh q d hd⟩
  · refine h.reap.onLast (fun _ => rfl) (fun q hq => Redis.setState_other hq _ _) ?_ h.reap.blocked
    have hcell := h.reap.cells p
    dsimp only at hcell ⊢
    rw [hlast'] at hcell ⊢
    exact Redis.tracks_started hcell hslot hlt
  · refine hwithin.start fun g' hg' => ?_
    cases hlast'.symm.trans hg'
    exact hlt

/-- A permit is settled, and may set a cooldown. -/
theorem kept_settled (h : Linked route s) (hwithin : Within route s.clock s.grants) {p : String}
    {blocked : Option (Stored Time)} {cooldown : Time} (hcooldown : s.cooldown ≤ cooldown)
    (hblocked : blocked = none ∧ cooldown = 0 ∨
      ∃ e, blocked = some { value := cooldown, expiresAt := some e } ∧ cooldown ≤ e) :
    Kept route s { s with
      redis := { (s.redis.reapExpiredPermits s.clock).release p with blocked := blocked }
      grants := AgentRuntime.onLast p
        (fun g => if s.clock < g.deadline then { g with settled := true } else g) s.grants
      cooldown := cooldown } True := by
  have hpermit : ∀ g : Grant,
      (if s.clock < g.deadline then { g with settled := true } else g).permit = g.permit := by
    intro g
    split <;> rfl
  refine ⟨⟨?_, h.onlyLast.onLast hpermit, hblocked⟩, hwithin.settle, hcooldown, fun _ q d hd => ?_⟩
  · have hreleased := h.reap.onLast (r := (s.redis.reapExpiredPermits s.clock).release p) hpermit
      (fun q hq => Redis.release_other hq _) (by
        have hcell := h.reap.cells p
        dsimp only at hcell ⊢
        cases hlast : lastGrant s.grants p with
        | none =>
          rw [hlast] at hcell
          refine ⟨?_, ?_, hcell.rpm, hcell.tpm, hcell.tokens⟩
          · show (Table.erase _ p).find? p = none
            rw [Table.find?_erase, if_pos rfl]
          · show Function.update (s.redis.reapExpiredPermits s.clock).permits p _ p = none
            rw [Function.update_self, hcell.hash]
            rfl
        | some g =>
          rw [hlast] at hcell
          exact Redis.tracks_release hcell (h.reap_fresh p)) h.reap.blocked
    intro q
    exact (hreleased.cells q).congr ⟨rfl, rfl, rfl, rfl, rfl⟩
  · have hd' : ((s.redis.reapExpiredPermits s.clock).active.erase p).find? q = some (q, d) := hd
    rw [Table.find?_erase] at hd'
    split at hd'
    · cases hd'
    · exact h.reap_fresh q d hd'

end Linked

theorem learn_refused {route : ModelRoute} {now : Time} {grants : List Grant} {permit : String}
    {tokens : Nat} {status : PermitStatus} {detail : Time} (h : status = .acquired → detail = 0) :
    learn route now grants (.acquire permit tokens) (status, detail) = grants := by
  unfold learn
  cases status with
  | acquired => exact if_pos (h rfl)
  | _ => rfl

theorem learn_notStarted {route : ModelRoute} {now : Time} {grants : List Grant} {permit : String}
    {status : PermitStatus} {detail : Time} (h : status ≠ .started) :
    learn route now grants (.started permit) (status, detail) = grants := by
  unfold learn
  cases status with
  | started => exact absurd rfl h
  | _ => rfl

theorem learn_notSettled {route : ModelRoute} {now : Time} {grants : List Grant} {permit : String}
    {retryAfter : Time} {status : PermitStatus} {detail : Time} (h : status ≠ .settled) :
    learn route now grants (.settle permit retryAfter) (status, detail) = grants := by
  unfold learn
  cases status with
  | settled => exact absurd rfl h
  | _ => rfl

theorem learnCooldown_notSettled {r : Redis} {now cooldown : Time} {op : TrafficOp}
    {status : PermitStatus} (h : status ≠ .settled) :
    learnCooldown r now cooldown op status = cooldown := by
  unfold learnCooldown
  split
  · exact absurd rfl h
  · rfl

theorem learn_granted {route : ModelRoute} {now : Time} {grants : List Grant} {permit : String}
    {tokens : Nat} : learn route now grants (.acquire permit tokens) (.acquired, route.permitTtl) =
      { permit := permit, at_ := now, deadline := now + route.permitTtl, tokens := tokens }
        :: grants :=
  if_neg (Nat.pos_iff_ne_zero.mp route.permitTtl_pos)

/-- One operation keeps the links and the limits. -/
theorem Linked.kept_step {route : ModelRoute} {s : TrafficState} (h : Linked route s)
    (hwithin : Within route s.clock s.grants) (e : TrafficEvent) :
    Kept route s (trafficStep route s e)
      (Reaps e.op (s.redis.permitScript route (s.clock + e.elapsed) e.op).2) := by
  have hw := h.wait e.elapsed
  have hwithin' : Within route (s.clock + e.elapsed) s.grants := hwithin.wait e.elapsed
  have hscript := Redis.scriptStep route s.redis (s.clock + e.elapsed) e.op
  unfold trafficStep
  dsimp only
  generalize s.redis.permitScript route (s.clock + e.elapsed) e.op = result at hscript
  generalize e.op = op at hscript
  cases hscript with
  | refused hzero hfull hrpm htpm =>
    rw [learn_refused hzero]
    refine ⟨hw, hwithin', Nat.le_refl _, fun hreaps => ?_⟩
    -- told the state of a permit it holds, or refused before the cleanup
    rcases hreaps with h | h | h | ⟨h, hdetail⟩
    · exact absurd h hfull
    · exact absurd h hrpm
    · exact absurd h htpm
    · exact absurd (hzero h) hdetail
  | noSlot => exact ⟨hw.reap, hwithin', Nat.le_refl _, fun _ => hw.reap_fresh⟩
  | noRate hstatus =>
    have hnot : ∀ {x y : PermitStatus}, x = .rpmExceeded ∨ x = .tpmExceeded →
        y ≠ .rpmExceeded → y ≠ .tpmExceeded → x ≠ y := by
      rintro x y (rfl | rfl) h₁ h₂ rfl
      · exact h₁ rfl
      · exact h₂ rfl
    rw [learn_refused fun he => absurd he (hnot hstatus (by decide) (by decide))]
    exact ⟨hw.reap.trim, hwithin', Nat.le_refl _, fun _ => hw.reap_fresh⟩
  | granted hheld hslots hrpm htpm =>
    have hkept := hw.kept_grant hheld hslots hrpm htpm
    dsimp only
    rw [learn_granted]
    exact ⟨hkept.linked, hkept.within, hkept.cooldown, fun _ => hkept.fresh trivial⟩
  | notStarted hstatus =>
    rw [learn_notStarted hstatus]
    exact ⟨hw.reap, hwithin', Nat.le_refl _, fun _ => hw.reap_fresh⟩
  | started hread hstate =>
    have hkept := (hw.kept_started hwithin' hread hstate).2
    exact ⟨hkept.linked, hkept.within, hkept.cooldown, fun _ => hkept.fresh trivial⟩
  | notSettled hstatus =>
    rw [learn_notSettled hstatus, learnCooldown_notSettled hstatus]
    exact ⟨hw.reap, hwithin', Nat.le_refl _, fun _ => hw.reap_fresh⟩
  | @settled permit =>
    have hkept := hw.kept_settled (p := permit) hwithin' (Nat.le_refl _) hw.reap.blocked
    exact ⟨hkept.linked, hkept.within, hkept.cooldown, fun _ => hkept.fresh trivial⟩
  | @blocks permit retryAfter hlt =>
    have hle := hw.cooldown_le
    have hlasts : s.redis.cooldown (s.clock + e.elapsed) retryAfter ≤ s.clock + e.elapsed
        + ceilSeconds (s.redis.cooldown (s.clock + e.elapsed) retryAfter
          - (s.clock + e.elapsed)) := by
      have := Redis.le_ceilSeconds
        (s.redis.cooldown (s.clock + e.elapsed) retryAfter - (s.clock + e.elapsed))
      lia
    have hkept := hw.kept_settled (p := permit) hwithin' (hle retryAfter)
      (Or.inr ⟨_, rfl, hlasts⟩)
    have hlearned : learnCooldown s.redis (s.clock + e.elapsed) s.cooldown
        (.settle permit retryAfter) .settled
          = s.redis.cooldown (s.clock + e.elapsed) retryAfter := if_pos hlt
    rw [hlearned]
    exact ⟨hkept.linked, hkept.within, hkept.cooldown, fun _ => hkept.fresh trivial⟩
  | @circuit _ r' reply hop hsame hblocked =>
    have hlinked : Linked route {
        redis := r', clock := s.clock + e.elapsed, grants := s.grants, cooldown := s.cooldown } :=
      ⟨fun p => (hw.cells p).congr (hsame p), hw.onlyLast, hblocked ▸ hw.blocked⟩
    rcases hop with rfl | rfl | rfl
    · exact ⟨hlinked, hwithin', Nat.le_refl _, False.elim⟩
    · exact ⟨hlinked, hwithin', Nat.le_refl _, False.elim⟩
    · exact ⟨hlinked, hwithin', Nat.le_refl _, False.elim⟩

/-- A permit is only started while its last grant is live and was not started
before. -/
theorem Linked.startsOnce {route : ModelRoute} {s : TrafficState} (h : Linked route s)
    (hwithin : Within route s.clock s.grants) {e : TrafficEvent} {p : String}
    (hop : e.op = .started p) (hreply : replyTo route s e = .started) :
    ∃ g, lastGrant s.grants p = some g ∧ g.started = false ∧ g.settled = false ∧
      (trafficStep route s e).clock < g.deadline ∧
      (trafficStep route s e).grants =
        AgentRuntime.onLast p (fun g => { g with started := true }) s.grants := by
  have hscript := Redis.scriptStep route s.redis (s.clock + e.elapsed) e.op
  unfold replyTo at hreply
  unfold trafficStep
  dsimp only
  rw [hop] at hscript hreply ⊢
  generalize s.redis.permitScript route (s.clock + e.elapsed) (.started p) = result
    at hscript hreply
  cases hscript with
  | notStarted hstatus => exact absurd hreply hstatus
  | started hread hstate =>
    obtain ⟨g, hlast, hstarted, hsettled, hlt⟩ :=
      ((h.wait e.elapsed).kept_started (hwithin.wait e.elapsed) hread hstate).1
    exact ⟨g, hlast, hstarted, hsettled, hlt, rfl⟩
  | circuit hop => rcases hop with hop | hop | hop <;> cases hop

/-- An operation on linked state keeps every promise. -/
theorem Linked.promises {route : ModelRoute} {s : TrafficState} (h : Linked route s)
    (hwithin : Within route s.clock s.grants) (e : TrafficEvent) : Promises route s e where
  within := (h.kept_step hwithin e).within
  sameKeys := (h.kept_step hwithin e).linked.sameKeys
  grantsAnew g hgrants := by
    have honly := (h.kept_step hwithin e).linked.onlyLast
    unfold OnlyLast at honly
    rw [hgrants] at honly
    exact fun g' hg' hp => (List.pairwise_cons.mp honly).1 g' hg' hp.symm
  startsOnce p hop hreply := by
    obtain ⟨g, hlast, hstarted, hsettled, hlt, hgrants⟩ := h.startsOnce hwithin hop hreply
    refine ⟨g, hlast, hstarted, hsettled, hlt, ?_⟩
    have hself := lastGrant_onLast_self (p := p) (f := fun g => { g with started := true })
      (fun _ => rfl) s.grants
    rw [hgrants, hself, hlast]
    rfl
  rollsBack hreaps _ hmem hback :=
    (h.kept_step hwithin e).linked.rollsBack ((h.kept_step hwithin e).fresh hreaps) hmem hback
  keepsCharge _ hmem hcharged := (h.kept_step hwithin e).linked.keepsCharge hmem hcharged
  cooldown := (h.kept_step hwithin e).cooldown
  inForce := (h.kept_step hwithin e).linked.inForce

/-- A permit is told it is started once for each of its grants that was. -/
theorem Linked.startedGrants_step {route : ModelRoute} {s : TrafficState} (h : Linked route s)
    (hwithin : Within route s.clock s.grants) (e : TrafficEvent) (p : String) :
    startedGrants (trafficStep route s e).grants p =
      startedGrants s.grants p + [(e.op, replyTo route s e)].count (.started p, .started) := by
  by_cases hstart : (e.op, replyTo route s e) = (.started p, .started)
  · obtain ⟨hop, hreply⟩ := Prod.mk.inj hstart
    obtain ⟨g, hlast, hstarted, -, -, hgrants⟩ := h.startsOnce hwithin hop hreply
    rw [hstart, hgrants, List.count_singleton_self]
    refine countP_onLast_new (by simp [hstarted]) ?_ _ hlast
    have hp := permit_of_lastGrant hlast
    exact decide_eq_true ⟨hp, rfl⟩
  · rw [List.count_singleton, if_neg (by simpa using hstart), Nat.add_zero]
    show startedGrants (learn route _ s.grants e.op _) p = _
    unfold replyTo at hstart
    generalize s.redis.permitScript route (s.clock + e.elapsed) e.op = result at hstart
    obtain ⟨r, status, detail⟩ := result
    unfold learn startedGrants
    split
    · split
      · rfl
      · exact List.countP_cons_of_neg (by simp)
    next q _ hop hreply =>
      cases hreply
      -- another permit was started
      refine countP_onLast (fun g hg => ?_) s.grants
      have hne : g.permit ≠ p := fun hp => hstart (by rw [hop, ← hg, hp])
      simp [hne]
    · refine countP_onLast (fun g _ => ?_) s.grants
      split <;> rfl
    · rfl

theorem Linked.startedGrants_run {route : ModelRoute} (p : String) :
    ∀ (es : List TrafficEvent) {s : TrafficState}, Linked route s →
      Within route s.clock s.grants →
      startedGrants (run (trafficStep route) s es).grants p =
        startedGrants s.grants p + (replies route s es).count (.started p, .started)
  | [], _, _, _ => rfl
  | e :: es, s, h, hwithin => by
    have hkept := h.kept_step hwithin e
    have hstep := h.startedGrants_step hwithin e p
    have hrest := startedGrants_run p es hkept.linked hkept.within
    show startedGrants (run (trafficStep route) (trafficStep route s e) es).grants p = _
    rw [hrest, hstep]
    show _ = _ + List.count _ ([(e.op, replyTo route s e)] ++ replies route _ es)
    rw [List.count_append, Nat.add_assoc]

/-- From an empty store, every operation keeps its promises, and a permit is
started at most once for each grant. -/
theorem permits_keep_promises (route : ModelRoute) (es : List TrafficEvent) :
    Along (trafficStep route) (Promises route) {} es ∧
    ∀ p, (replies route {} es).count (.started p, .started) ≤
      (run (trafficStep route) {} es).grants.countP (fun g => decide (g.permit = p)) := by
  have hinit : Within route 0 [] := ⟨Nat.zero_le _, Nat.zero_le _, Nat.zero_le _⟩
  constructor
  · exact along_of_inv (I := fun s => Linked route s ∧ Within route s.clock s.grants)
      (fun _ e h => ⟨(h.1.kept_step h.2 e).linked, (h.1.kept_step h.2 e).within⟩)
      (fun _ e h => h.1.promises h.2 e) es {} ⟨Linked.init route, hinit⟩
  · intro p
    have hcount := Linked.startedGrants_run p es (Linked.init route) hinit
    have hnone : startedGrants ({} : TrafficState).grants p = 0 := rfl
    rw [hnone, Nat.zero_add] at hcount
    rw [← hcount]
    exact List.countP_mono_left fun g _ hg => decide_eq_true (of_decide_eq_true hg).1

/-- A permit id that comes back after its hash is gone is granted and started
again. -/
theorem permit_started_twice : ∃ (route : ModelRoute) (es : List TrafficEvent) (p : String),
    1 < (replies route {} es).count (.started p, .started) := by
  refine ⟨{ routeId := "route" }, [
    { op := .acquire "permit" 1 }, { op := .started "permit" }, { op := .settle "permit" 0 },
    { elapsed := seconds 3600, op := .acquire "permit" 1 }, { op := .started "permit" }],
    "permit", ?_⟩
  decide +kernel

end AgentRuntime
