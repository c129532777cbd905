import Mathlib.Data.List.Sort

/-!
# A queue worked off in batches

A pass takes the first `n` entries of a queue; the good ones leave it, the
others stay where they are, at the front. Which entry is ever reached is
decided before the first pass (`leaves_iff`): a good one leaves the queue
exactly if fewer than `n` of the entries before it are not good. Each pass
with fewer of them takes a good entry out of the front (`length_pass_lt`);
with `n` of them every pass is over before it gets past the front
(`passes_front`).

The queue is often the sorted part of a larger list that meets a condition;
`filter_insertionSort` says that taking entries out commutes with sorting.
-/

namespace Batches

variable {α : Type} (good : α → Bool) (n : Nat)

/-- One pass over the queue. -/
def pass (queue : List α) : List α :=
  (queue.take n).filter (fun a => !good a) ++ queue.drop n

/-- The queue after `k` passes. -/
def passes : Nat → List α → List α
  | 0, queue => queue
  | k + 1, queue => passes k (pass good n queue)

/-- How many entries stay in the queue for ever. -/
def stuck (queue : List α) : Nat :=
  queue.countP fun a => !good a

/-- What is in front of the entry with the key. -/
def ahead {κ : Type} [DecidableEq κ] (key : α → κ) (k : κ) (queue : List α) : List α :=
  queue.takeWhile fun a => decide (key a ≠ k)

variable {good n}

theorem passes_succ (k : Nat) (queue : List α) :
    passes good n (k + 1) queue = pass good n (passes good n k queue) := by
  induction k generalizing queue with
  | zero => rfl
  | succ k ih => exact ih (pass good n queue)

theorem pass_nil : pass good n [] = [] := by
  unfold pass
  rw [List.take_nil, List.drop_nil]
  rfl

theorem pass_zero (queue : List α) : pass good 0 queue = queue := rfl

theorem pass_succ_cons (a : α) (queue : List α) :
    pass good (n + 1) (a :: queue)
      = if good a then pass good n queue else a :: pass good n queue := by
  unfold pass
  rw [List.take_succ_cons, List.drop_succ_cons]
  by_cases hgood : good a = true
  · rw [if_pos hgood, List.filter_cons_of_neg (by simp [hgood])]
  · rw [if_neg hgood, List.filter_cons_of_pos (by simp [hgood]), List.cons_append]

theorem stuck_le_length (queue : List α) : stuck good queue ≤ queue.length :=
  List.countP_le_length

/-- A pass leaves the entries that are not good. -/
theorem stuck_pass (queue : List α) : stuck good (pass good n queue) = stuck good queue := by
  unfold stuck pass
  rw [List.countP_append, List.countP_filter]
  simp only [Bool.and_self]
  rw [← List.countP_append, List.take_append_drop]

/-- Entries behind a full batch are not looked at. -/
theorem pass_append {front : List α} (rest : List α) (h : n ≤ front.length) :
    pass good n (front ++ rest) = pass good n front ++ rest := by
  unfold pass
  rw [List.take_append_of_le_length h, List.drop_append_of_le_length h, List.append_assoc]

/-- A batch with too few entries that stay gets shorter. -/
theorem length_pass_lt {queue : List α} (hlong : n ≤ queue.length)
    (hfew : stuck good queue < n) : (pass good n queue).length < queue.length := by
  have htake : (queue.take n).length = n := List.length_take_of_le hlong
  have hstay : ((queue.take n).filter fun a => !good a).length ≤ stuck good queue := by
    rw [← List.countP_eq_length_filter]
    exact (List.take_sublist n queue).countP_le
  have hdrop : (queue.drop n).length = queue.length - n := List.length_drop
  unfold pass
  rw [List.length_append, hdrop]
  omega

/-- What is behind `n` entries that stay is behind them after every pass. -/
theorem passes_front {front : List α} (rest : List α) (h : n ≤ stuck good front) :
    ∀ k, passes good n k (front ++ rest) = passes good n k front ++ rest := by
  intro k
  induction k generalizing front with
  | zero => rfl
  | succ k ih =>
    have hlong : n ≤ front.length := Nat.le_trans h (stuck_le_length front)
    unfold passes
    rw [pass_append rest hlong]
    exact ih (by rw [stuck_pass]; exact h)

/-- A good entry of the batch leaves the queue. -/
theorem not_mem_pass {front back : List α} {x : α} (hgood : good x = true) (hback : x ∉ back)
    (h : front.length < n) : x ∉ pass good n (front ++ x :: back) := by
  intro hmem
  unfold pass at hmem
  rcases List.mem_append.mp hmem with htake | hdrop
  · have hbad := (List.mem_filter.mp htake).2
    rw [hgood] at hbad
    cases hbad
  · -- the batch goes past the entry
    obtain ⟨i, rfl⟩ : ∃ i, n = front.length + (i + 1) := ⟨n - front.length - 1, by omega⟩
    rw [List.drop_length_add_append, List.drop_succ_cons] at hdrop
    exact hback (List.mem_of_mem_drop hdrop)

/-- With fewer than `n` entries that stay in front of it, a good entry is
reached. -/
theorem leaves {back : List α} {x : α} (hgood : good x = true) (hback : x ∉ back) :
    ∀ (size : Nat) {front : List α}, front.length ≤ size → stuck good front < n →
      ∃ k, x ∉ passes good n k (front ++ x :: back) := by
  intro size
  induction size with
  | zero =>
    intro front hsize hfew
    refine ⟨1, not_mem_pass hgood hback ?_⟩
    omega
  | succ size ih =>
    intro front hsize hfew
    by_cases hlong : n ≤ front.length
    · -- the batch ends in the front, which gets shorter
      have hshort := length_pass_lt hlong hfew
      have hsize' : (pass good n front).length ≤ size := by omega
      obtain ⟨k, hk⟩ := ih hsize' (by rw [stuck_pass]; exact hfew)
      refine ⟨k + 1, ?_⟩
      show x ∉ passes good n k (pass good n (front ++ x :: back))
      rw [pass_append _ hlong]
      exact hk
    · refine ⟨1, not_mem_pass hgood hback ?_⟩
      omega

theorem leaves_append_iff {front back : List α} {x : α} (hgood : good x = true) (hback : x ∉ back) :
    (∃ k, x ∉ passes good n k (front ++ x :: back)) ↔ stuck good front < n := by
  constructor
  · rintro ⟨k, hk⟩
    by_contra hmany
    apply hk
    rw [passes_front _ (Nat.not_lt.mp hmany)]
    exact List.mem_append_right _ List.mem_cons_self
  · exact leaves hgood hback front.length (Nat.le_refl _)

/-! ## Queues without repeats -/

section

variable {κ : Type} [DecidableEq κ] {key : α → κ}

/-- A pass takes out what it has served. -/
theorem pass_eq_filter {queue : List α} (hnodup : (queue.map key).Nodup) :
    pass good n queue
      = queue.filter fun a => decide (key a ∉ ((queue.take n).filter good).map key) := by
  have hsplit : queue.map key = (queue.take n).map key ++ (queue.drop n).map key := by
    rw [← List.map_append, List.take_append_drop]
  rw [hsplit, List.nodup_append] at hnodup
  obtain ⟨htake, -, hdisjoint⟩ := hnodup
  unfold pass
  have hfilter : queue.filter (fun a => decide (key a ∉ ((queue.take n).filter good).map key))
      = (queue.take n).filter (fun a => decide (key a ∉ ((queue.take n).filter good).map key))
        ++ (queue.drop n).filter
          (fun a => decide (key a ∉ ((queue.take n).filter good).map key)) := by
    rw [← List.filter_append, List.take_append_drop]
  rw [hfilter]
  refine congr (congrArg _ (List.filter_congr fun a ha => ?_)) (Eq.symm ?_)
  · -- in the batch only the good ones are served
    by_cases hgood : good a = true
    · have hserved : key a ∈ ((queue.take n).filter good).map key :=
        List.mem_map_of_mem (List.mem_filter.mpr ⟨ha, hgood⟩)
      rw [hgood, decide_eq_false (not_not.mpr hserved)]
      rfl
    · have hserved : key a ∉ ((queue.take n).filter good).map key := by
        intro hmem
        obtain ⟨b, hb, hkey⟩ := List.mem_map.mp hmem
        obtain ⟨hb, hgood'⟩ := List.mem_filter.mp hb
        have hsame := List.inj_on_of_nodup_map htake hb ha hkey
        exact hgood (hsame ▸ hgood')
      rw [Bool.eq_false_iff.mpr hgood, decide_eq_true hserved]
      rfl
  · -- behind the batch nothing is
    refine List.filter_eq_self.mpr fun a ha => decide_eq_true fun hmem => ?_
    obtain ⟨b, hb, hkey⟩ := List.mem_map.mp hmem
    exact hdisjoint (key b) (List.mem_map_of_mem (List.mem_filter.mp hb).1) (key a)
      (List.mem_map_of_mem ha) hkey

theorem ahead_spec {queue : List α} {x : α} (hnodup : (queue.map key).Nodup) (hx : x ∈ queue) :
    ∃ back, queue = ahead key (key x) queue ++ x :: back ∧ x ∉ back := by
  induction queue with
  | nil => cases hx
  | cons a queue ih =>
    rw [List.map_cons, List.nodup_cons] at hnodup
    obtain ⟨hnew, hnodup⟩ := hnodup
    by_cases hkey : key a = key x
    · have hsame : x = a := by
        rcases List.mem_cons.mp hx with hsame | hrest
        · exact hsame
        · exact absurd (hkey ▸ List.mem_map_of_mem hrest) hnew
      subst hsame
      refine ⟨queue, ?_, fun hmem => hnew (List.mem_map_of_mem hmem)⟩
      unfold ahead
      rw [List.takeWhile_cons_of_neg (by simp)]
      rfl
    · have hrest : x ∈ queue := by
        rcases List.mem_cons.mp hx with rfl | hrest
        · exact absurd rfl hkey
        · exact hrest
      obtain ⟨back, hqueue, hback⟩ := ih hnodup hrest
      refine ⟨back, ?_, hback⟩
      unfold ahead at hqueue ⊢
      rw [List.takeWhile_cons_of_pos (by simpa using hkey), List.cons_append, ← hqueue]

/-- **Which entries are reached**: those with fewer than `n` in front of them
that stay. -/
theorem leaves_iff {queue : List α} {x : α} (hnodup : (queue.map key).Nodup) (hx : x ∈ queue)
    (hgood : good x = true) :
    (∃ k, x ∉ passes good n k queue) ↔ stuck good (ahead key (key x) queue) < n := by
  obtain ⟨back, hqueue, hback⟩ := ahead_spec hnodup hx
  have hiff : (∃ k, x ∉ passes good n k (ahead key (key x) queue ++ x :: back)) ↔
      stuck good (ahead key (key x) queue) < n := leaves_append_iff hgood hback
  rw [← hqueue] at hiff
  exact hiff

end

/-! ## Sorted queues -/

section

variable {r : α → α → Prop} [DecidableRel r] [IsTrans α r]

theorem filter_orderedInsert {p : α → Bool} (a : α) : ∀ {l : List α}, l.Pairwise r →
    (l.orderedInsert r a).filter p = if p a then (l.filter p).orderedInsert r a else l.filter p
  | [], _ => by
    by_cases hp : p a = true
    · rw [if_pos hp]
      show [a].filter p = [a]
      rw [List.filter_cons_of_pos hp, List.filter_nil]
    · rw [if_neg hp]
      show [a].filter p = []
      rw [List.filter_cons_of_neg hp, List.filter_nil]
  | b :: l, hsorted => by
    obtain ⟨hhead, htail⟩ := List.pairwise_cons.mp hsorted
    by_cases hab : r a b
    · rw [List.orderedInsert_cons_of_le r l hab]
      by_cases hp : p a = true
      · -- what is left of a list above `a` is above it
        rw [if_pos hp, List.filter_cons_of_pos hp]
        cases hrest : (b :: l).filter p with
        | nil => rfl
        | cons c rest =>
          have hc : c ∈ b :: l := (List.mem_filter.mp (hrest ▸ List.mem_cons_self)).1
          have hac : r a c := by
            rcases List.mem_cons.mp hc with rfl | hmem
            · exact hab
            · exact IsTrans.trans _ _ _ hab (hhead c hmem)
          rw [List.orderedInsert_cons_of_le r rest hac]
      · rw [if_neg hp, List.filter_cons_of_neg hp]
    · have hcons : (b :: l).orderedInsert r a = b :: l.orderedInsert r a :=
        List.orderedInsert_of_not_le r l hab
      rw [hcons]
      have ih := filter_orderedInsert (p := p) a htail
      by_cases hb : p b = true
      · rw [List.filter_cons_of_pos hb, ih, List.filter_cons_of_pos hb]
        by_cases hp : p a = true
        · rw [if_pos hp, if_pos hp]
          exact (List.orderedInsert_of_not_le r _ hab).symm
        · rw [if_neg hp, if_neg hp]
      · rw [List.filter_cons_of_neg hb, ih, List.filter_cons_of_neg hb]

/-- Sorting and taking entries out commute. -/
theorem filter_insertionSort [Std.Total r] (p : α → Bool) (l : List α) :
    (l.insertionSort r).filter p = (l.filter p).insertionSort r := by
  induction l with
  | nil => rfl
  | cons a l ih =>
    rw [List.insertionSort_cons, filter_orderedInsert a (List.pairwise_insertionSort r l), ih]
    by_cases hp : p a = true
    · rw [if_pos hp, List.filter_cons_of_pos hp, List.insertionSort_cons]
    · rw [if_neg hp, List.filter_cons_of_neg hp]

end

end Batches
