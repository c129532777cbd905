/-!
# Packing a line

Things stand in a line and are packed from its front, with a cap on their
total size and on their number. What is larger than the cap alone is passed
over; the batch ends at the first of the others that does not fit any more.
`Packs` says which batch that is, and `Packs.unique` that there is only one.
-/

namespace Packing

variable {α : Type}

/-- Those that the cap allows alone. -/
def within (size : α → Int) (cap : Int) (line : List α) : List α :=
  line.filter fun x => decide (size x ≤ cap)

/-- The size of all of them. -/
def total (size : α → Int) : List α → Int
  | [] => 0
  | x :: xs => size x + total size xs

/-- The batch at the front of the line: all of it is allowed, it fits, and
where it could take one more, the next one does not fit. -/
structure Packs (size : α → Int) (cap : Int) (most : Nat) (line batch : List α) : Prop where
  fits : total size batch ≤ cap
  few : batch.length ≤ most
  front : ∃ behind, within size cap line = batch ++ behind ∧
    (batch.length = most ∨ ∀ x ∈ behind.head?, cap < total size batch + size x)

section

variable {size : α → Int} {cap : Int} {most : Nat} {line batch batch' : List α}

@[simp] theorem within_nil : within size cap ([] : List α) = [] := rfl

theorem within_append (xs ys : List α) :
    within size cap (xs ++ ys) = within size cap xs ++ within size cap ys :=
  List.filter_append xs ys

theorem within_cons_of_le {x : α} (h : size x ≤ cap) (xs : List α) :
    within size cap (x :: xs) = x :: within size cap xs :=
  List.filter_cons_of_pos (decide_eq_true h)

theorem within_cons_of_lt {x : α} (h : cap < size x) (xs : List α) :
    within size cap (x :: xs) = within size cap xs :=
  List.filter_cons_of_neg (by rw [decide_eq_true_iff]; exact Int.not_le.mpr h)

@[simp] theorem total_nil : total size ([] : List α) = 0 := rfl

@[simp] theorem total_cons (x : α) (xs : List α) :
    total size (x :: xs) = size x + total size xs := rfl

theorem total_append (xs ys : List α) :
    total size (xs ++ ys) = total size xs + total size ys := by
  induction xs with
  | nil => rw [List.nil_append, total_nil, Int.zero_add]
  | cons x xs ih => rw [List.cons_append, total_cons, total_cons, ih, Int.add_assoc]

theorem total_nonneg (hsize : ∀ x, 0 ≤ size x) (xs : List α) : 0 ≤ total size xs := by
  induction xs with
  | nil => exact Int.le_refl 0
  | cons x xs ih =>
    rw [total_cons]
    exact Int.add_nonneg (hsize x) ih

/-- A batch does not end where the other goes on. -/
theorem Packs.not_longer (hsize : ∀ x, 0 ≤ size x) (h : Packs size cap most line batch)
    {x : α} {more : List α} (h' : Packs size cap most line (batch ++ x :: more)) : False := by
  obtain ⟨behind, hfront, hend⟩ := h.front
  obtain ⟨behind', hfront', _⟩ := h'.front
  have hnext : behind = x :: (more ++ behind') := by
    rw [hfront, List.append_assoc] at hfront'
    exact List.append_cancel_left hfront'
  have hfits := h'.fits
  rw [total_append, total_cons] at hfits
  have hmore := total_nonneg hsize more
  rcases hend with hfull | hnext'
  · have hfew := h'.few
    rw [List.length_append, List.length_cons] at hfew
    omega
  · have hover := hnext' x (by rw [hnext]; rfl)
    omega

/-- **There is one batch** at the front of a line. -/
theorem Packs.unique (hsize : ∀ x, 0 ≤ size x) (h : Packs size cap most line batch)
    (h' : Packs size cap most line batch') : batch = batch' := by
  obtain ⟨behind, hfront, _⟩ := h.front
  obtain ⟨behind', hfront', _⟩ := h'.front
  rw [hfront] at hfront'
  rcases List.append_eq_append_iff.mp hfront' with ⟨more, rfl, _⟩ | ⟨more, rfl, _⟩
  · cases more with
    | nil => exact (List.append_nil batch).symm
    | cons x more => exact (h.not_longer hsize h').elim
  · cases more with
    | nil => exact List.append_nil batch'
    | cons x more => exact (h'.not_longer hsize h).elim

end

end Packing
