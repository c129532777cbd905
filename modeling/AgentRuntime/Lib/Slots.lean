import Mathlib.Data.List.Basic
import Mathlib.Data.List.Count

/-!
# Slots in scopes of limited capacity

A request asks for one slot in each of its scopes and is served only when
every one of them has room. A batch is served in order; `serveEach` passes a
request over that finds a scope full, `AllServed` says that there is none.

- `allServed_iff`: the whole batch is served if and only if no scope is asked
  for more than it has left.
- `turn_full_iff`: nobody is served, at any turn, if and only if every request
  finds a scope full to begin with.
-/

namespace Slots

variable {R S : Type} [DecidableEq S] (scopes : R → List S) (limit : S → Nat)

/-- Every scope of the request has a slot left. -/
def Room (occupied : S → Nat) (r : R) : Prop :=
  ∀ s ∈ scopes r, occupied s < limit s

instance (occupied : S → Nat) (r : R) : Decidable (Room scopes limit occupied r) := by
  unfold Room; infer_instance

/-- The slots in use once the request is served. -/
def occupy (occupied : S → Nat) (r : R) : S → Nat :=
  fun s => if s ∈ scopes r then occupied s + 1 else occupied s

/-- The slots in use after a batch in which a request that finds no room is
passed over. -/
def serveEach : (S → Nat) → List R → S → Nat
  | occupied, [] => occupied
  | occupied, r :: rest =>
    if Room scopes limit occupied r then serveEach (occupy scopes occupied r) rest
    else serveEach occupied rest

/-- Every request of the batch finds room when its turn comes. -/
def AllServed : (S → Nat) → List R → Prop
  | _, [] => True
  | occupied, r :: rest =>
    Room scopes limit occupied r ∧ AllServed (occupy scopes occupied r) rest

/-- How many requests of a batch ask for a slot of `s`. -/
def demand (batch : List R) (s : S) : Nat :=
  batch.countP (fun r => decide (s ∈ scopes r))

variable {scopes limit}

theorem demand_cons_of_mem {r : R} {rest : List R} {s : S} (h : s ∈ scopes r) :
    demand scopes (r :: rest) s = demand scopes rest s + 1 :=
  List.countP_cons_of_pos (by simpa using h)

theorem demand_cons_of_not_mem {r : R} {rest : List R} {s : S} (h : s ∉ scopes r) :
    demand scopes (r :: rest) s = demand scopes rest s :=
  List.countP_cons_of_neg (by simpa using h)

/-- A batch is served whole exactly when no scope is asked for more slots than
it has left. -/
theorem allServed_iff : ∀ {batch : List R} {occupied : S → Nat},
    AllServed scopes limit occupied batch ↔
      ∀ r ∈ batch, ∀ s ∈ scopes r, occupied s + demand scopes batch s ≤ limit s
  | [], occupied => by simp [AllServed]
  | r :: rest, occupied => by
    unfold AllServed
    rw [allServed_iff]
    constructor
    · rintro ⟨hroom, hrest⟩ q hq s hs
      by_cases hsr : s ∈ scopes r
      · rw [demand_cons_of_mem hsr]
        -- the last of `rest` that asks for `s` has counted all the others
        by_cases hlater : ∃ p ∈ rest, s ∈ scopes p
        · obtain ⟨p, hp, hsp⟩ := hlater
          have hle := hrest p hp s hsp
          rw [occupy, if_pos hsr] at hle
          omega
        · have hnone : demand scopes rest s = 0 :=
            List.countP_eq_zero.mpr fun p hp => by simpa using fun hsp => hlater ⟨p, hp, hsp⟩
          have hlt := hroom s hsr
          omega
      · rcases List.mem_cons.mp hq with rfl | hq
        · exact absurd hs hsr
        · rw [demand_cons_of_not_mem hsr]
          have hle := hrest q hq s hs
          rwa [occupy, if_neg hsr] at hle
    · intro hall
      refine ⟨fun s hs => ?_, fun q hq s hs => ?_⟩
      · have hle := hall r List.mem_cons_self s hs
        rw [demand_cons_of_mem hs] at hle
        omega
      · have hle := hall q (List.mem_cons_of_mem r hq) s hs
        unfold occupy
        by_cases hsr : s ∈ scopes r
        · rw [demand_cons_of_mem hsr] at hle
          rw [if_pos hsr]
          omega
        · rw [demand_cons_of_not_mem hsr] at hle
          rwa [if_neg hsr]

/-- When every request is full from the start, passing them over changes
nothing. -/
theorem serveEach_of_full : ∀ {batch : List R} {occupied : S → Nat},
    (∀ r ∈ batch, ¬ Room scopes limit occupied r) →
      serveEach scopes limit occupied batch = occupied
  | [], _, _ => rfl
  | r :: rest, occupied, h => by
    unfold serveEach
    rw [if_neg (h r List.mem_cons_self)]
    exact serveEach_of_full fun q hq => h q (List.mem_cons_of_mem r hq)

/-- Nobody finds room at their turn exactly when nobody does at the start. -/
theorem turn_full_iff {batch : List R} {occupied : S → Nat} :
    (∀ before r after, batch = before ++ r :: after →
      ¬ Room scopes limit (serveEach scopes limit occupied before) r) ↔
    ∀ r ∈ batch, ¬ Room scopes limit occupied r := by
  constructor
  · intro h
    induction batch with
    | nil => intro r hr; cases hr
    | cons q rest ih =>
      have hq : ¬ Room scopes limit occupied q := h [] q rest rfl
      have hrest : ∀ r ∈ rest, ¬ Room scopes limit occupied r := by
        refine ih fun before r after heq => ?_
        have hturn := h (q :: before) r after (by rw [heq]; rfl)
        unfold serveEach at hturn
        rwa [if_neg hq] at hturn
      intro r hr
      rcases List.mem_cons.mp hr with rfl | hr
      · exact hq
      · exact hrest r hr
  · intro h before r after heq
    have hsub : ∀ q ∈ before, q ∈ batch := fun q hq => by
      rw [heq]
      exact List.mem_append_left _ hq
    rw [serveEach_of_full fun q hq => h q (hsub q hq)]
    exact h r (by rw [heq]; exact List.mem_append_right _ List.mem_cons_self)

end Slots
