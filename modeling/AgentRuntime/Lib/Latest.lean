import Mathlib.Data.List.Induction
import Mathlib.Order.Lattice

/-!
# The latest of a set, whatever the order of arrival

A register that takes an offer when the offer is acceptable and later than
what it holds. `IsLatest` says what the register of a set of offers is: one
of them, acceptable, and none of them is acceptable and later. `offers_latest`
shows that this is what the register holds after the offers have come in one
by one; since the rank tells acceptable offers apart, there is only one such
value (`IsLatest.unique`), so order and repetition of the offers do not matter
(`offers_congr`).
-/

namespace Latest

variable {π ι : Type} [LinearOrder ι] (good : π → Prop) [DecidablePred good] (rank : π → ι)

/-- Take the offer if it is acceptable and later than what is held. -/
def offer (r : Option π) (p : π) : Option π :=
  if good p ∧ ∀ q ∈ r, rank q < rank p then some p else r

/-- The register after the offers of `l`, the first one first. -/
def offers (r : Option π) (l : List π) : Option π :=
  l.foldl (offer good rank) r

/-- What the register of the offers `l` holds. -/
def IsLatest (l : List π) : Option π → Prop
  | none => ∀ p ∈ l, ¬ good p
  | some q => q ∈ l ∧ good q ∧ ∀ p ∈ l, good p → rank p ≤ rank q

variable {good rank}

theorem offer_pos {r : Option π} {p : π} (h : good p ∧ ∀ q ∈ r, rank q < rank p) :
    offer good rank r p = some p :=
  if_pos h

theorem offer_neg {r : Option π} {p : π} (h : ¬ (good p ∧ ∀ q ∈ r, rank q < rank p)) :
    offer good rank r p = r :=
  if_neg h

theorem offers_concat (r : Option π) (l : List π) (p : π) :
    offers good rank r (l ++ [p]) = offer good rank (offers good rank r l) p :=
  List.foldl_append ..

/-- One more offer. -/
theorem IsLatest.offer {l : List π} {r : Option π} (h : IsLatest good rank l r) (p : π) :
    IsLatest good rank (l ++ [p]) (offer good rank r p) := by
  by_cases hp : good p ∧ ∀ q ∈ r, rank q < rank p
  · rw [offer_pos hp]
    refine ⟨by simp, hp.1, fun x hx hgood => ?_⟩
    rcases List.mem_append.mp hx with hx | hx
    · cases r with
      | none => exact absurd hgood (h x hx)
      | some q => exact le_trans (h.2.2 x hx hgood) (le_of_lt (hp.2 q rfl))
    · exact le_of_eq (congrArg rank (List.mem_singleton.mp hx))
  · rw [offer_neg hp]
    cases r with
    | none =>
      intro x hx hgood
      rcases List.mem_append.mp hx with hx | hx
      · exact h x hx hgood
      · rw [List.mem_singleton.mp hx] at hgood
        exact hp ⟨hgood, fun q hq => nomatch hq⟩
    | some q =>
      refine ⟨List.mem_append_left _ h.1, h.2.1, fun x hx hgood => ?_⟩
      rcases List.mem_append.mp hx with hx | hx
      · exact h.2.2 x hx hgood
      · rw [List.mem_singleton.mp hx] at hgood ⊢
        exact not_lt.mp fun hlt => hp ⟨hgood, fun q' hq' => by cases hq'; exact hlt⟩

/-- The register holds the latest of what it was offered. -/
theorem offers_latest (l : List π) : IsLatest good rank l (offers good rank none l) := by
  induction l using List.reverseRecOn with
  | nil => exact fun p hp => nomatch hp
  | append_singleton l p ih =>
    rw [offers_concat]
    exact ih.offer p

omit [DecidablePred good] in
/-- There is one latest offer, when the rank tells acceptable offers apart. -/
theorem IsLatest.unique {l l' : List π} (hset : ∀ p, p ∈ l ↔ p ∈ l')
    (hinj : ∀ p ∈ l, ∀ q ∈ l, good p → good q → rank p = rank q → p = q) {r r' : Option π}
    (h : IsLatest good rank l r) (h' : IsLatest good rank l' r') : r = r' := by
  cases r with
  | none =>
    cases r' with
    | none => rfl
    | some q' => exact absurd h'.2.1 (h q' ((hset q').mpr h'.1))
  | some q =>
    cases r' with
    | none => exact absurd h.2.1 (h' q ((hset q).mp h.1))
    | some q' =>
      have hmem : q' ∈ l := (hset q').mpr h'.1
      have hrank : rank q = rank q' :=
        le_antisymm (h'.2.2 q ((hset q).mp h.1) h.2.1) (h.2.2 q' hmem h'.2.1)
      rw [hinj q h.1 q' hmem h.2.1 h'.2.1 hrank]

/-- Order and repetition of the offers do not matter. -/
theorem offers_congr {l l' : List π} (hset : ∀ p, p ∈ l ↔ p ∈ l')
    (hinj : ∀ p ∈ l, ∀ q ∈ l, good p → good q → rank p = rank q → p = q) :
    offers good rank none l = offers good rank none l' :=
  (offers_latest l).unique hset hinj (offers_latest l')

end Latest
