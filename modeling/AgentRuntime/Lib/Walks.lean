import Mathlib.Data.List.Basic
import AgentRuntime.Lib.Runs

/-!
# Walks

What a run of a step function looks like through a view `f` of its states:
`track` lists what is seen, before the first event and after each one. A
`Walk` along an edge relation is such a list, and `steps p` counts the passages
of a walk that `p` holds of. The laws below are those of any such list:

* `counts_steps`: a number that each event raises exactly at the passages of
  `p` counts them;
* `enters_leaves`: a place is entered as often as it is left, up to the two
  ends of the walk;
* `steps_le_one`: a set of places that is never entered is left at most once.
-/

namespace Walks

open Runs

variable {σ ε α : Type}

/-- What is seen of the states of a run. -/
def track (f : σ → α) (step : σ → ε → σ) : σ → List ε → List α
  | s, [] => [f s]
  | s, e :: es => f s :: track f step (step s e) es

/-- Each two neighbours are joined by an edge. -/
def Walk (edge : α → α → Prop) : List α → Prop
  | [] => True
  | [_] => True
  | x :: y :: xs => edge x y ∧ Walk edge (y :: xs)

/-- The number of passages that `p` holds of. -/
def steps (p : α → α → Bool) : List α → Nat
  | [] => 0
  | [_] => 0
  | x :: y :: xs => (if p x y = true then 1 else 0) + steps p (y :: xs)

variable {f : σ → α} {step : σ → ε → σ} {edge : α → α → Prop} {p q r : α → α → Bool}

/-! ## The walk of a run -/

theorem track_eq_cons (f : σ → α) (step : σ → ε → σ) (s : σ) (es : List ε) :
    ∃ xs, track f step s es = f s :: xs := by
  cases es with
  | nil => exact ⟨[], rfl⟩
  | cons e es => exact ⟨track f step (step s e) es, rfl⟩

theorem getLast?_track (s : σ) (es : List ε) :
    (track f step s es).getLast? = some (f (run step s es)) := by
  induction es generalizing s with
  | nil => rfl
  | cons e es ih =>
    obtain ⟨xs, hxs⟩ := track_eq_cons f step (step s e) es
    show (f s :: track f step (step s e) es).getLast? = _
    rw [hxs, List.getLast?_cons_cons, ← hxs]
    exact ih (step s e)

/-- Edges between the states before and after each event make a walk. -/
theorem walk_track {I : σ → Prop} (hI : ∀ s e, I s → I (step s e))
    (hedge : ∀ s e, I s → edge (f s) (f (step s e))) (es : List ε) :
    ∀ s, I s → Walk edge (track f step s es) := by
  induction es with
  | nil => exact fun _ _ => trivial
  | cons e es ih =>
    intro s hs
    have hrest := ih (step s e) (hI s e hs)
    obtain ⟨xs, hxs⟩ := track_eq_cons f step (step s e) es
    show Walk edge (f s :: track f step (step s e) es)
    rw [hxs] at hrest ⊢
    exact ⟨hedge s e hs, hrest⟩

/-- A number that goes up by one at the passages of `p`, and stays as it is
at the others, counts them. -/
theorem counts_steps {I : σ → Prop} (hI : ∀ s e, I s → I (step s e)) {m : σ → Nat}
    (hm : ∀ s e, I s → m (step s e) = m s + if p (f s) (f (step s e)) = true then 1 else 0)
    (es : List ε) : ∀ s, I s → m (run step s es) = m s + steps p (track f step s es) := by
  induction es with
  | nil => exact fun _ _ => rfl
  | cons e es ih =>
    intro s hs
    have hrest := ih (step s e) (hI s e hs)
    have hfirst := hm s e hs
    obtain ⟨xs, hxs⟩ := track_eq_cons f step (step s e) es
    show m (run step (step s e) es) = m s + steps p (f s :: track f step (step s e) es)
    rw [hxs] at hrest ⊢
    show _ = m s + ((if p (f s) (f (step s e)) = true then 1 else 0) + steps p (f (step s e) :: xs))
    omega

/-! ## Counting passages -/

theorem steps_mono (h : ∀ x y, p x y = true → q x y = true) : ∀ xs : List α, steps p xs ≤ steps q xs
  | [] => Nat.le_refl 0
  | [_] => Nat.le_refl 0
  | x :: y :: xs => by
    have hrest := steps_mono h (y :: xs)
    show (if p x y = true then 1 else 0) + steps p (y :: xs)
      ≤ (if q x y = true then 1 else 0) + steps q (y :: xs)
    by_cases hp : p x y = true
    · rw [if_pos hp, if_pos (h x y hp)]
      omega
    · rw [if_neg hp]
      omega

/-- Of two kinds that exclude each other the passages add up. -/
theorem steps_or (h : ∀ x y, p x y = true → q x y = false)
    (hr : ∀ x y, r x y = (p x y || q x y)) :
    ∀ xs : List α, steps r xs = steps p xs + steps q xs
  | [] => rfl
  | [_] => rfl
  | x :: y :: xs => by
    have hrest := steps_or h hr (y :: xs)
    show (if r x y = true then 1 else 0) + steps r (y :: xs)
      = ((if p x y = true then 1 else 0) + steps p (y :: xs))
        + ((if q x y = true then 1 else 0) + steps q (y :: xs))
    rw [hr x y]
    by_cases hp : p x y = true
    · rw [hp, h x y hp]
      simp only [Bool.or_false, if_true, Bool.false_eq_true, if_false]
      omega
    · rw [Bool.not_eq_true] at hp
      rw [hp]
      simp only [Bool.false_or, Bool.false_eq_true, if_false]
      omega

/-- Outside of a set that no edge goes back to nothing leaves it. -/
theorem steps_eq_zero {S : α → Bool} (hback : ∀ x y, edge x y → S x = false → S y = false)
    (hp : ∀ x y, p x y = true → S x = true) :
    ∀ (x : α) (xs : List α), S x = false → Walk edge (x :: xs) → steps p (x :: xs) = 0
  | _, [], _, _ => rfl
  | x, y :: xs, hx, hw => by
    have hxy : p x y ≠ true := fun h => by rw [hp x y h] at hx; cases hx
    show (if p x y = true then 1 else 0) + steps p (y :: xs) = 0
    rw [if_neg hxy, steps_eq_zero hback hp y xs (hback x y hw.1 hx) hw.2]

/-- A set of places that no edge goes back to is left at most once. -/
theorem steps_le_one {S : α → Bool} (hback : ∀ x y, edge x y → S x = false → S y = false)
    (hp : ∀ x y, p x y = true → S x = true ∧ S y = false) :
    ∀ {xs : List α}, Walk edge xs → steps p xs ≤ 1
  | [], _ => Nat.zero_le _
  | [_], _ => Nat.zero_le _
  | x :: y :: xs, hw => by
    have hrest := steps_le_one hback hp hw.2
    show (if p x y = true then 1 else 0) + steps p (y :: xs) ≤ 1
    by_cases hxy : p x y = true
    · have hzero : steps p (y :: xs) = 0 :=
        steps_eq_zero hback (fun x y h => (hp x y h).1) y xs (hp x y hxy).2 hw.2
      rw [if_pos hxy]
      omega
    · rw [if_neg hxy]
      omega

variable [DecidableEq α]

/-- The passages into `b` from elsewhere, and out of it to elsewhere. -/
def into (b x y : α) : Bool := decide (x ≠ b ∧ y = b)

def outOf (b x y : α) : Bool := decide (x = b ∧ y ≠ b)

/-- **A place is entered as often as it is left**, if one counts the start of
the walk there as an entry and its end there as an exit. -/
theorem enters_leaves (b : α) : ∀ (x : α) (xs : List α),
    steps (into b) (x :: xs) + (if x = b then 1 else 0)
      = steps (outOf b) (x :: xs) + (if (x :: xs).getLast? = some b then 1 else 0)
  | x, [] => by
    show 0 + (if x = b then 1 else 0) = 0 + (if some x = some b then 1 else 0)
    simp
  | x, y :: xs => by
    have hrest := enters_leaves b y xs
    rw [List.getLast?_cons_cons]
    show (if into b x y = true then 1 else 0) + steps (into b) (y :: xs) + (if x = b then 1 else 0)
      = (if outOf b x y = true then 1 else 0) + steps (outOf b) (y :: xs)
        + (if (y :: xs).getLast? = some b then 1 else 0)
    unfold into outOf at *
    by_cases hx : x = b <;> by_cases hy : y = b <;>
      simp only [hx, hy, ne_eq, not_true_eq_false, not_false_eq_true, and_self, and_false,
        and_true, decide_true, decide_false, if_true, if_false,
        Bool.false_eq_true] at hrest ⊢ <;> omega

end Walks
