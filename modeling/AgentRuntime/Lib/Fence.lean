import AgentRuntime.Lib.Runs
import Mathlib.Order.Lattice

/-!
# Fenced leases

A lease with a fencing token, over any linearly ordered time. The state is
the current token together with the instant until which the lease is held
(`none` when nobody holds it). A `FenceStep` is one atomic change at an
instant: a *grant* hands out the next token, a *renewal* extends a lease
that is still live, a *cut* shortens or drops it, and anything else leaves
the fence alone.

`Lapsed k now` says that the holder of token `k` has lost the lease at
`now`: a later token was granted, or the lease of `k` is over. The point of
a fence is that this is permanent — `FenceStep.lapsed` — because a renewal
demands a live lease and a grant moves on to a larger token. `Live` is its
complement for the current token, and `live_unique` says that only the
current token can be live.
-/

namespace Fencing

variable {τ : Type} [LinearOrder τ]

/-- A fence: the last token handed out and the end of the current lease. -/
structure Fence (τ : Type) where
  token : Nat
  until? : Option τ

/-- The lease end lies after `now`. -/
def heldAfter (u : Option τ) (now : τ) : Prop :=
  ∃ t, u = some t ∧ now < t

instance (u : Option τ) (now : τ) : Decidable (heldAfter u now) :=
  match u with
  | none => isFalse fun h => by obtain ⟨t, ht, _⟩ := h; cases ht
  | some t => decidable_of_iff (now < t) (by simp [heldAfter])

@[simp] theorem heldAfter_some (t now : τ) : heldAfter (some t) now ↔ now < t := by
  simp [heldAfter]

@[simp] theorem not_heldAfter_none (now : τ) : ¬ heldAfter none now := by
  simp [heldAfter]

/-- Token `k` owns the lease at `now`. -/
def Live (f : Fence τ) (k : Nat) (now : τ) : Prop :=
  f.token = k ∧ heldAfter f.until? now

/-- Token `k` has lost the lease at `now`. -/
def Lapsed (f : Fence τ) (k : Nat) (now : τ) : Prop :=
  k < f.token ∨ (k = f.token ∧ ¬ heldAfter f.until? now)

/-- One atomic change of the fence at the instant `now`. -/
inductive FenceStep (now : τ) (f : Fence τ) : Fence τ → Prop
  | keep : FenceStep now f f
  | grant (u : Option τ) : FenceStep now f ⟨f.token + 1, u⟩
  | renew (u : Option τ) (h : heldAfter f.until? now) : FenceStep now f ⟨f.token, u⟩
  | cut (u : Option τ) (h : ¬ heldAfter u now) : FenceStep now f ⟨f.token, u⟩

theorem heldAfter_mono {u : Option τ} {now later : τ} (hle : now ≤ later)
    (h : heldAfter u later) : heldAfter u now := by
  obtain ⟨t, ht, hlt⟩ := h
  exact ⟨t, ht, lt_of_le_of_lt hle hlt⟩

/-- Only the current token is live. -/
theorem live_unique {f : Fence τ} {j k : Nat} {now : τ} (hj : Live f j now)
    (hk : Live f k now) : j = k :=
  hj.1.symm.trans hk.1

theorem Lapsed.not_live {f : Fence τ} {k : Nat} {now : τ} (h : Lapsed f k now) :
    ¬ Live f k now := by
  intro hl
  rcases h with hlt | ⟨_, hno⟩
  · exact absurd hl.1 (Nat.ne_of_gt hlt)
  · exact hno hl.2

/-- Waiting does not give a lapsed lease back. -/
theorem Lapsed.later {f : Fence τ} {k : Nat} {now later : τ} (hle : now ≤ later)
    (h : Lapsed f k now) : Lapsed f k later := by
  rcases h with hlt | ⟨heq, hno⟩
  · exact Or.inl hlt
  · exact Or.inr ⟨heq, fun hl => hno (heldAfter_mono hle hl)⟩

theorem FenceStep.token_le {f f' : Fence τ} {now : τ} (h : FenceStep now f f') :
    f.token ≤ f'.token := by
  cases h <;> simp

/-- **A lapsed lease stays lapsed**: no step at `now` revives it. -/
theorem FenceStep.lapsed {f f' : Fence τ} {k : Nat} {now : τ}
    (hs : FenceStep now f f') (h : Lapsed f k now) : Lapsed f' k now := by
  rcases h with hlt | ⟨heq, hno⟩
  · exact Or.inl (lt_of_lt_of_le hlt hs.token_le)
  · cases hs with
    | keep => exact Or.inr ⟨heq, hno⟩
    | grant u => exact Or.inl (by simp [heq])
    | renew u hl => exact absurd hl hno
    | cut u hu => exact Or.inr ⟨heq, hu⟩

/-- A fenced system: a clock that never runs backwards and, at every event,
one step of the fence at the instant the clock then shows. -/
structure Driven {σ ε : Type} (step : σ → ε → σ) (fence : σ → Fence τ)
    (clock : σ → τ) : Prop where
  clock_le : ∀ s e, clock s ≤ clock (step s e)
  fenceStep : ∀ s e, FenceStep (clock (step s e)) (fence s) (fence (step s e))

variable {σ ε : Type} {step : σ → ε → σ} {fence : σ → Fence τ} {clock : σ → τ}

/-- A token that has lapsed is lapsed after every further run. -/
theorem Driven.lapsed_run (d : Driven step fence clock) {k : Nat} (es : List ε)
    (s : σ) (h : Lapsed (fence s) k (clock s)) :
    Lapsed (fence (Runs.run step s es)) k (clock (Runs.run step s es)) :=
  Runs.run_inv (I := fun t => Lapsed (fence t) k (clock t))
    (fun t e ht => (d.fenceStep t e).lapsed (ht.later (d.clock_le t e))) es s h

end Fencing
