import Mathlib.Data.List.Nodup
import Mathlib.Data.List.Basic
import Mathlib.Algebra.Order.Ring.Int

/-!
# Numbers that are given and numbers that are counted

A list of items of which some bring a number and the others are given one
when the list is gone through. There are two rules for the others. By place,
an item without a number takes its position (`places`); running, it takes the
next number after the highest so far (`running`), of its own group where the
items belong to groups (`runningIn`).

Given numbers that differ may still meet the counted ones:

- `places_nodup_iff`: by place, exactly where somebody gives the position of
  an item without a number;
- `running_nodup_iff`: running, exactly where a later item gives the number
  that one without had taken. That number is one more than `highest`, which
  is counted from the numbers that are given alone.
-/

namespace Numbering

variable {κ : Type} [DecidableEq κ]

/-- The numbers that are given. -/
def given (os : List (Option Int)) : List Int := os.filterMap id

@[simp] theorem given_nil : given [] = [] := rfl

@[simp] theorem given_none (os : List (Option Int)) : given (none :: os) = given os := rfl

@[simp] theorem given_some (n : Int) (os : List (Option Int)) :
    given (some n :: os) = n :: given os := rfl

/-! ## By place -/

/-- The numbers by place, the first place being `k`. -/
def places : Nat → List (Option Int) → List Int
  | _, [] => []
  | k, o :: os => o.getD k :: places (k + 1) os

theorem places_length : ∀ {k : Nat} {os : List (Option Int)}, (places k os).length = os.length
  | _, [] => rfl
  | _, _ :: _ => congrArg Nat.succ places_length

theorem mem_places {x : Int} : ∀ {k : Nat} {os : List (Option Int)},
    x ∈ places k os ↔ x ∈ given os ∨ ∃ p ∈ os.zipIdx k, p.1 = none ∧ x = p.2
  | _, [] => by simp [places]
  | k, none :: os => by
    simp only [places, Option.getD_none, List.mem_cons, @mem_places x _ os, given_none,
      List.zipIdx_cons, exists_eq_or_imp, true_and]
    tauto
  | k, some n :: os => by
    simp only [places, Option.getD_some, List.mem_cons, @mem_places x _ os, given_some,
      List.zipIdx_cons, exists_eq_or_imp, reduceCtorEq, false_and, false_or]
    tauto

/-- By place, numbers differ where the given ones do and nobody gives the
position of an item without. -/
theorem places_nodup_iff : ∀ {k : Nat} {os : List (Option Int)},
    (places k os).Nodup ↔ (given os).Nodup ∧
      ∀ p ∈ os.zipIdx k, p.1 = none → (p.2 : Int) ∉ given os
  | _, [] => by simp [places]
  | k, none :: os => by
    have hlater : ∀ p ∈ os.zipIdx (k + 1), (k : Int) ≠ p.2 := fun p hp => by
      have := (List.mem_zipIdx hp).1
      omega
    simp only [places, Option.getD_none, List.nodup_cons, mem_places, @places_nodup_iff _ os,
      given_none, List.zipIdx_cons, List.forall_mem_cons, not_or, not_exists, not_and]
    constructor
    · rintro ⟨⟨hk, _⟩, hnodup, hrest⟩
      exact ⟨hnodup, fun _ => hk, hrest⟩
    · rintro ⟨hnodup, hk, hrest⟩
      exact ⟨⟨hk trivial, fun p hp _ => hlater p hp⟩, hnodup, hrest⟩
  | k, some n :: os => by
    simp only [places, Option.getD_some, List.nodup_cons, mem_places, @places_nodup_iff _ os,
      given_some, List.zipIdx_cons, List.forall_mem_cons, not_or, not_exists, not_and]
    constructor
    · rintro ⟨⟨hn, hplaces⟩, hnodup, hrest⟩
      refine ⟨⟨hn, hnodup⟩, fun h => (nomatch h), fun p hp hnone hmem => ?_⟩
      exact (List.mem_cons.mp hmem).elim (fun h => hplaces p hp hnone h.symm) (hrest p hp hnone)
    · rintro ⟨⟨hn, hnodup⟩, _, hrest⟩
      refine ⟨⟨hn, fun p hp hnone h => hrest p hp hnone ?_⟩, hnodup, fun p hp hnone hmem => ?_⟩
      · exact List.mem_cons.mpr (Or.inl h.symm)
      · exact hrest p hp hnone (List.mem_cons_of_mem n hmem)

/-! ## Running -/

/-- The numbers after `last`, everyone without taking the next one. -/
def running : Int → List (Option Int) → List Int
  | _, [] => []
  | last, o :: os => o.getD (last + 1) :: running (max last (o.getD (last + 1))) os

/-- How many have no number. -/
def unnumbered (os : List (Option Int)) : Nat := os.countP (·.isNone)

/-- The highest number after `last`: it is raised by everyone without a
number, and so is each number that is given by those that follow. -/
def highest : Int → List (Option Int) → Int
  | last, [] => last
  | last, none :: os => highest (last + 1) os
  | last, some n :: os => max (n + unnumbered os) (highest last os)

theorem highest_max (n : Int) : ∀ (os : List (Option Int)) (last : Int),
    highest (max last n) os = max (n + unnumbered os) (highest last os)
  | [], last => by simp [highest, unnumbered, max_comm]
  | none :: os, last => by
    have hcount : unnumbered (none :: os) = unnumbered os + 1 := by simp [unnumbered]
    have hraise : max last n + 1 = max (last + 1) (n + 1) := by omega
    rw [highest, highest, hraise, highest_max (n + 1) os, hcount]
    have : n + 1 + (unnumbered os : Int) = n + ((unnumbered os + 1 : Nat) : Int) := by omega
    rw [this]
  | some m :: os, last => by
    have hcount : unnumbered (some m :: os) = unnumbered os := by simp [unnumbered]
    rw [highest, highest, highest_max n os, hcount, max_left_comm]

/-- A number after `last` is given, or it is above `last`. -/
theorem running_cases {x : Int} : ∀ {last : Int} {os : List (Option Int)},
    x ∈ running last os → x ∈ given os ∨ last < x
  | _, [], h => nomatch h
  | last, none :: os, h => by
    rcases List.mem_cons.mp h with rfl | h
    · exact Or.inr (by simp)
    · refine (running_cases h).imp id fun hlt => ?_
      have : max last (last + 1) = last + 1 := by omega
      rw [Option.getD_none, this] at hlt
      omega
  | last, some n :: os, h => by
    rcases List.mem_cons.mp h with rfl | h
    · exact Or.inl (List.mem_cons_self ..)
    · refine (running_cases h).imp (List.mem_cons_of_mem n) fun hlt => ?_
      rw [Option.getD_some] at hlt
      omega

theorem given_subset_running {x : Int} : ∀ {last : Int} {os : List (Option Int)},
    x ∈ given os → x ∈ running last os
  | _, [], h => nomatch h
  | _, none :: _, h => List.mem_cons_of_mem _ (given_subset_running h)
  | _, some _ :: _, h => by
    rcases List.mem_cons.mp h with rfl | h
    · exact List.mem_cons_self ..
    · exact List.mem_cons_of_mem _ (given_subset_running h)

/-- Nobody gives the number that an item without one has taken before. -/
def Unmet (last : Int) (os : List (Option Int)) : Prop :=
  ∀ i < os.length, os[i]? = some none → highest last (os.take i) + 1 ∉ given (os.drop (i + 1))

instance (last : Int) (os : List (Option Int)) : Decidable (Unmet last os) := by
  unfold Unmet; infer_instance

theorem unmet_none {last : Int} {os : List (Option Int)} :
    Unmet last (none :: os) ↔ last + 1 ∉ given os ∧ Unmet (last + 1) os := by
  constructor
  · intro h
    exact ⟨h 0 (Nat.succ_pos _) rfl, fun i hi => h (i + 1) (Nat.succ_lt_succ hi)⟩
  · rintro ⟨hfirst, hrest⟩ (_ | i) hi hnone
    · exact hfirst
    · exact hrest i (Nat.lt_of_succ_lt_succ hi) hnone

theorem unmet_some {last n : Int} {os : List (Option Int)} :
    Unmet last (some n :: os) ↔ Unmet (max last n) os := by
  have hshift : ∀ i, highest last ((some n :: os).take (i + 1)) = highest (max last n) (os.take i) :=
    fun i => (highest_max n (os.take i) last).symm
  constructor
  · intro h i hi hnone
    rw [← hshift]
    exact h (i + 1) (Nat.succ_lt_succ hi) hnone
  · rintro h (_ | i) hi hnone
    · cases hnone
    · rw [hshift]
      exact h i (Nat.lt_of_succ_lt_succ hi) hnone

/-- Running, numbers of which the given ones differ differ exactly where
nobody gives one that was taken. -/
theorem running_nodup_iff : ∀ {last : Int} {os : List (Option Int)}, (given os).Nodup →
    ((running last os).Nodup ↔ Unmet last os)
  | _, [], _ => by simp [running, Unmet]
  | last, none :: os, hgiven => by
    have hnext : max last (last + 1) = last + 1 := by omega
    rw [running, Option.getD_none, hnext, List.nodup_cons, unmet_none,
      @running_nodup_iff _ os hgiven]
    refine and_congr_left fun _ => not_congr ⟨fun h => ?_, given_subset_running⟩
    exact (running_cases h).resolve_right (by omega)
  | last, some n :: os, hgiven => by
    obtain ⟨hn, hgiven⟩ := List.nodup_cons.mp hgiven
    rw [running, Option.getD_some, List.nodup_cons, unmet_some, @running_nodup_iff _ os hgiven]
    refine and_iff_right fun h => ?_
    have := (running_cases h).resolve_left hn
    omega

/-! ## In groups -/

/-- The items of one group. -/
def ofGroup (k : κ) (items : List (κ × Option Int)) : List (Option Int) :=
  items.filterMap fun p => if p.1 = k then some p.2 else none

/-- The numbers in groups, each with its group. -/
def runningIn : (κ → Int) → List (κ × Option Int) → List (κ × Int)
  | _, [] => []
  | last, (k, o) :: items =>
    let n := o.getD (last k + 1)
    (k, n) :: runningIn (Function.update last k (max (last k) n)) items

theorem runningIn_groups : ∀ (last : κ → Int) (items : List (κ × Option Int)),
    (runningIn last items).map Prod.fst = items.map Prod.fst
  | _, [] => rfl
  | _, _ :: items => congrArg (List.cons _) (runningIn_groups _ items)

theorem mem_runningIn {k : κ} {n : Int} : ∀ {last : κ → Int} {items : List (κ × Option Int)},
    (k, n) ∈ runningIn last items ↔ n ∈ running (last k) (ofGroup k items)
  | _, [] => by simp [runningIn, ofGroup, running]
  | last, (k', o) :: items => by
    simp only [runningIn, List.mem_cons, Prod.mk.injEq, @mem_runningIn k n _ items]
    by_cases hk : k' = k
    · subst hk
      simp [ofGroup, running]
    · simp [ofGroup, hk, Ne.symm hk]

/-- The numbers differ in groups where they do in each group. -/
theorem runningIn_nodup_iff : ∀ {last : κ → Int} {items : List (κ × Option Int)},
    (runningIn last items).Nodup ↔ ∀ k, (running (last k) (ofGroup k items)).Nodup
  | _, [] => by simp [runningIn, ofGroup, running]
  | last, (k, o) :: items => by
    have hself : ofGroup k ((k, o) :: items) = o :: ofGroup k items := by simp [ofGroup]
    have hother : ∀ j, j ≠ k → ofGroup j ((k, o) :: items) = ofGroup j items := fun j hj => by
      simp [ofGroup, Ne.symm hj]
    rw [runningIn, List.nodup_cons, mem_runningIn, @runningIn_nodup_iff _ items]
    rw [Function.update_self]
    constructor
    · rintro ⟨hfirst, hrest⟩ j
      by_cases hj : j = k
      · subst hj
        rw [hself, running, List.nodup_cons]
        refine ⟨hfirst, ?_⟩
        have := hrest j
        rwa [Function.update_self] at this
      · have := hrest j
        rwa [Function.update_of_ne hj, ← hother j hj] at this
    · intro h
      have hk := h k
      rw [hself, running, List.nodup_cons] at hk
      refine ⟨hk.1, fun j => ?_⟩
      by_cases hj : j = k
      · subst hj
        rw [Function.update_self]
        exact hk.2
      · rw [Function.update_of_ne hj, ← hother j hj]
        exact h j

end Numbering
