import Mathlib.Data.Option.Basic

/-!
# Values that expire

A value under a key of a store that drops the key at its deadline; a value
without a deadline stays. `get` is what a read finds at an instant.
-/

namespace Expiring

/-- A stored value and the instant from which it is gone. -/
structure Stored (α : Type) where
  value : α
  expiresAt : Option Nat := none
  deriving DecidableEq, Repr

variable {α : Type}

/-- The value has not reached its deadline. -/
def Stored.Alive (now : Nat) (v : Stored α) : Prop :=
  ∀ t ∈ v.expiresAt, now < t

instance (now : Nat) (v : Stored α) : Decidable (v.Alive now) := by
  unfold Stored.Alive; infer_instance

/-- What a read at `now` finds. -/
def get (now : Nat) (v : Option (Stored α)) : Option α :=
  v.bind fun v => if v.Alive now then some v.value else none

/-- A value stored until `t` is found before, and not from then on. -/
theorem get_until (now t : Nat) (a : α) :
    get now (some ⟨a, some t⟩) = if now < t then some a else none := by
  simp [get, Stored.Alive]

theorem get_eq_some {now : Nat} {v : Option (Stored α)} {a : α} :
    get now v = some a ↔ ∃ e, v = some ⟨a, e⟩ ∧ ∀ t ∈ e, now < t := by
  cases v with
  | none => simp [get]
  | some v =>
    obtain ⟨b, e⟩ := v
    by_cases h : ∀ t ∈ e, now < t
    · have hget : get now (some ⟨b, e⟩) = some b := if_pos h
      rw [hget]
      constructor
      · intro hb
        cases hb
        exact ⟨e, rfl, h⟩
      · rintro ⟨e', he, -⟩
        cases he
        rfl
    · have hget : get now (some ⟨b, e⟩) = none := if_neg h
      rw [hget]
      constructor
      · intro hb
        cases hb
      · rintro ⟨e', he, he'⟩
        cases he
        exact absurd he' h

end Expiring
