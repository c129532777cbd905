import Mathlib.Order.Basic
import AgentRuntime.Lib.Table

/-!
# Copies of versioned rows

A row has a version that never goes back. A session that has read a row goes
on with its copy while the row moves on: `Later` says what the copy still
tells about the row. The row's version is no smaller, and as long as it is
the same, the row differs from the copy as `Q` allows. An update that
compares the version therefore acts on what was read (`Later.current`), one
that does not may act on something else.

`Evolves` is the same for a whole table, of which no row goes away, and
`Seen` is what evolving tables keep of a copy (`Seen.evolves`).
-/

namespace Versioned

open Keyed

variable {α ν κ : Type} [PartialOrder ν] {version : α → ν} {Q R : α → α → Prop} {a b c : α}

/-- What the copy `a` tells about the row `b`. -/
def Later (version : α → ν) (Q : α → α → Prop) (a b : α) : Prop :=
  version a ≤ version b ∧ (version b = version a → Q a b)

theorem Later.refl (hQ : ∀ a, Q a a) (a : α) : Later version Q a a :=
  ⟨le_refl _, fun _ => hQ a⟩

theorem Later.trans (hQ : ∀ {a b c}, Q a b → Q b c → Q a c) (hab : Later version Q a b)
    (hbc : Later version Q b c) : Later version Q a c := by
  refine ⟨hab.1.trans hbc.1, fun hsame => ?_⟩
  have hb : version b = version a := le_antisymm (hsame ▸ hbc.1) hab.1
  exact hQ (hab.2 hb) (hbc.2 (hsame.trans hb.symm))

/-- The copy of a row that has not moved on. -/
theorem Later.current (h : Later version Q a b) (hle : version b ≤ version a) :
    version b = version a ∧ Q a b :=
  have hsame := le_antisymm hle h.1
  ⟨hsame, h.2 hsame⟩

variable [DecidableEq κ] {key : α → κ} {t t' t'' : Table key}

/-- Every row is still there, and is as `R` says. -/
def Evolves (R : α → α → Prop) (t t' : Table key) : Prop :=
  ∀ k a, t.find? k = some a → ∃ b, t'.find? k = some b ∧ R a b

theorem Evolves.refl (hR : ∀ a, R a a) (t : Table key) : Evolves R t t :=
  fun _ a h => ⟨a, h, hR a⟩

/-- A copy of a row of the table. -/
def Seen (R : α → α → Prop) (t : Table key) (a : α) : Prop :=
  ∃ b, t.find? (key a) = some b ∧ R a b

theorem seen_of_find? (hR : ∀ a, R a a) {k : κ} (h : t.find? k = some a) : Seen R t a := by
  refine ⟨a, ?_, hR a⟩
  rw [Table.key_of_find? h]
  exact h

theorem Seen.evolves (hR : ∀ {a b c}, R a b → R b c → R a c) (h : Seen R t a)
    (ht : Evolves R t t') : Seen R t' a := by
  obtain ⟨b, hfind, hab⟩ := h
  obtain ⟨c, hfind', hbc⟩ := ht _ b hfind
  exact ⟨c, hfind', hR hab hbc⟩

end Versioned
