import Mathlib.Data.List.Basic
import Mathlib.Data.List.Flatten

/-!
# Cutting a list, and filling pieces up to a length

A list is cut after every element that ends a piece (`cutAfter`), or into
blocks of a length (`blocks`). `fill` puts pieces together again as long as they
fit into a length: what is held grows by the next piece where both fit together
and is closed otherwise, and a piece that is too long alone is cut into blocks.
Nothing is lost (`flatten_fill`) and everything fits (`of_mem_fill`).

Where every piece but the last holds a good element, `fill_good_iff` says exactly
when every filled piece does: the blocks of the long pieces do, and the last
piece, where it does not, finds room in what is held before it.

A list can also be cut at its first element with a property (`exists_cut`), in
one way only (`cut_unique`). And where something is taken from every element of
a list, what takes less everywhere leaves nothing out if it comes to the same
(`eq_of_sublist_of_flatMap_eq`, `eq_of_flatMap_eq`).
-/

namespace Cutting

variable {α : Type}

/-- The list, cut after every element that ends a piece. -/
def cutAfter (ends : α → Bool) : List α → List (List α)
  | [] => []
  | a :: l =>
    if ends a then [a] :: cutAfter ends l
    else
      match cutAfter ends l with
      | [] => [[a]]
      | piece :: pieces => (a :: piece) :: pieces

/-- The list, cut into blocks of `n` elements; the last may be shorter. -/
def blocks (n : Nat) (l : List α) : List (List α) :=
  if _h : 0 < n ∧ 0 < l.length then l.take n :: blocks n (l.drop n) else []
  termination_by l.length
  decreasing_by rw [List.length_drop]; omega

/-- What is held becomes a piece, unless it is empty. -/
def closed : List α → List (List α)
  | [] => []
  | a :: l => [a :: l]

/-- The pieces put together up to the length `n`; a longer one is cut into
blocks. -/
def fill (n : Nat) : List α → List (List α) → List (List α)
  | held, [] => closed held
  | held, piece :: pieces =>
    if n < piece.length then closed held ++ blocks n piece ++ fill n [] pieces
    else if held ≠ [] ∧ n < held.length + piece.length then held :: fill n piece pieces
    else fill n (held ++ piece) pieces

/-- The length of what is held after the pieces. -/
def heldLength (n : Nat) : Nat → List (List α) → Nat
  | held, [] => held
  | held, piece :: pieces =>
    heldLength n
      (if n < piece.length then 0
        else if n < held + piece.length then piece.length
        else held + piece.length) pieces

/-! ## `cutAfter` -/

theorem cutAfter_cons_end {ends : α → Bool} {a : α} (h : ends a = true) (l : List α) :
    cutAfter ends (a :: l) = [a] :: cutAfter ends l := by
  rw [cutAfter, if_pos h]

theorem flatten_cutAfter (ends : α → Bool) (l : List α) : (cutAfter ends l).flatten = l := by
  induction l with
  | nil => rfl
  | cons a l ih =>
    by_cases ha : ends a = true
    · rw [cutAfter_cons_end ha, List.flatten_cons, ih, List.singleton_append]
    · rw [cutAfter, if_neg ha]
      cases hrest : cutAfter ends l with
      | nil => rw [hrest] at ih; rw [← ih]; rfl
      | cons piece pieces =>
        rw [hrest, List.flatten_cons] at ih
        show (a :: piece) ++ pieces.flatten = a :: l
        rw [List.cons_append, ih]

/-- Where nothing ends there is one piece. -/
theorem cutAfter_of_no_end {ends : α → Bool} (l : List α) : ∀ a, (a :: l).any ends = false →
    cutAfter ends (a :: l) = [a :: l] := by
  induction l with
  | nil =>
    intro a h
    rw [List.any_cons, Bool.or_eq_false_iff] at h
    rw [cutAfter, if_neg (by rw [h.1]; exact Bool.false_ne_true)]
    rfl
  | cons b l ih =>
    intro a h
    rw [List.any_cons, Bool.or_eq_false_iff] at h
    rw [cutAfter, if_neg (by rw [h.1]; exact Bool.false_ne_true), ih b h.2]

theorem cutAfter_ne_nil {ends : α → Bool} {l : List α} (h : l ≠ []) : cutAfter ends l ≠ [] := by
  intro hnil
  have hflat := flatten_cutAfter ends l
  rw [hnil] at hflat
  exact h hflat.symm

theorem ne_nil_of_mem_cutAfter {ends : α → Bool} {l : List α} :
    ∀ piece ∈ cutAfter ends l, piece ≠ [] := by
  induction l with
  | nil => intro piece hmem; exact absurd hmem List.not_mem_nil
  | cons a l ih =>
    intro piece hmem
    by_cases ha : ends a = true
    · rw [cutAfter_cons_end ha] at hmem
      rcases List.mem_cons.mp hmem with rfl | hmem
      · exact List.cons_ne_nil _ _
      · exact ih piece hmem
    · rw [cutAfter, if_neg ha] at hmem
      cases hrest : cutAfter ends l with
      | nil =>
        rw [hrest] at hmem
        rw [List.mem_singleton.mp hmem]
        exact List.cons_ne_nil _ _
      | cons first rest =>
        rw [hrest] at hmem
        rcases List.mem_cons.mp hmem with rfl | hmem
        · exact List.cons_ne_nil _ _
        · exact ih piece (by rw [hrest]; exact List.mem_cons_of_mem _ hmem)

/-- Every piece but the last holds an element that ends it. -/
theorem end_of_cutAfter {ends : α → Bool} {l : List α} : ∀ init last,
    cutAfter ends l = init ++ [last] → ∀ piece ∈ init, piece.any ends = true := by
  induction l with
  | nil =>
    intro init last h
    exact absurd h.symm (List.append_ne_nil_of_right_ne_nil _ (List.cons_ne_nil _ _))
  | cons a l ih =>
    intro init last h piece hmem
    by_cases ha : ends a = true
    · rw [cutAfter_cons_end ha] at h
      cases init with
      | nil => exact absurd hmem List.not_mem_nil
      | cons first init =>
        obtain ⟨rfl, hrest⟩ := List.cons.inj h
        rcases List.mem_cons.mp hmem with rfl | hmem
        · exact List.any_eq_true.mpr ⟨a, List.mem_cons_self, ha⟩
        · exact ih init last hrest piece hmem
    · rw [cutAfter, if_neg ha] at h
      cases hrest : cutAfter ends l with
      | nil =>
        rw [hrest] at h
        cases init with
        | nil => exact absurd hmem List.not_mem_nil
        | cons first init =>
          exact absurd (List.cons.inj h).2.symm
            (List.append_ne_nil_of_right_ne_nil _ (List.cons_ne_nil _ _))
      | cons head rest =>
        rw [hrest] at h
        cases init with
        | nil => exact absurd hmem List.not_mem_nil
        | cons first init =>
          -- the first piece has grown by an element that does not end it
          obtain ⟨rfl, hinit⟩ := List.cons.inj h
          have hpieces : cutAfter ends l = (head :: init) ++ [last] := by rw [hrest, hinit]; rfl
          rcases List.mem_cons.mp hmem with rfl | hmem
          · rw [List.any_cons, Bool.or_eq_true]
            exact .inr (ih _ last hpieces head List.mem_cons_self)
          · exact ih _ last hpieces piece (List.mem_cons_of_mem _ hmem)

/-! ## `blocks` -/

theorem blocks_nil (n : Nat) : blocks n ([] : List α) = [] := by
  rw [blocks, dif_neg (fun h => Nat.lt_irrefl _ h.2)]

theorem blocks_of_pos {n : Nat} (hn : 0 < n) {l : List α} (hl : l ≠ []) :
    blocks n l = l.take n :: blocks n (l.drop n) := by
  rw [blocks, dif_pos ⟨hn, List.length_pos_of_ne_nil hl⟩]

theorem flatten_blocks {n : Nat} (hn : 0 < n) (l : List α) : (blocks n l).flatten = l := by
  by_cases hl : l = []
  · rw [hl, blocks_nil]; rfl
  · have : (l.drop n).length < l.length := by
      rw [List.length_drop]
      have := List.length_pos_of_ne_nil hl
      omega
    rw [blocks_of_pos hn hl, List.flatten_cons, flatten_blocks hn (l.drop n),
      List.take_append_drop]
  termination_by l.length

theorem of_mem_blocks {n : Nat} (l : List α) :
    ∀ piece ∈ blocks n l, piece ≠ [] ∧ piece.length ≤ n := by
  intro piece hmem
  by_cases h : 0 < n ∧ 0 < l.length
  · have : (l.drop n).length < l.length := by rw [List.length_drop]; omega
    rw [blocks, dif_pos h] at hmem
    rcases List.mem_cons.mp hmem with rfl | hmem
    · refine ⟨List.ne_nil_of_length_pos ?_, List.length_take_le n l⟩
      rw [List.length_take]
      omega
    · exact of_mem_blocks (l.drop n) piece hmem
  · rw [blocks, dif_neg h] at hmem
    exact absurd hmem List.not_mem_nil
  termination_by l.length

/-! ## `fill` -/

theorem closed_of_ne_nil {l : List α} (h : l ≠ []) : closed l = [l] := by
  cases l with
  | nil => exact absurd rfl h
  | cons a l => rfl

theorem flatten_closed (l : List α) : (closed l).flatten = l := by
  cases l with
  | nil => rfl
  | cons a l => rw [closed, List.flatten_singleton]

theorem of_mem_closed {n : Nat} {l : List α} (h : l.length ≤ n) :
    ∀ piece ∈ closed l, piece ≠ [] ∧ piece.length ≤ n := by
  intro piece hmem
  cases l with
  | nil => exact absurd hmem List.not_mem_nil
  | cons a l =>
    rw [List.mem_singleton.mp hmem]
    exact ⟨List.cons_ne_nil a l, h⟩

/-- Nothing is lost, and nothing moves. -/
theorem flatten_fill {n : Nat} (hn : 0 < n) (pieces : List (List α)) :
    ∀ held, (fill n held pieces).flatten = held ++ pieces.flatten := by
  induction pieces with
  | nil => intro held; rw [fill, flatten_closed, List.flatten_nil, List.append_nil]
  | cons piece pieces ih =>
    intro held
    rw [fill, List.flatten_cons]
    split
    · rw [List.flatten_append, List.flatten_append, flatten_closed, flatten_blocks hn, ih,
        List.nil_append, List.append_assoc]
    · split
      · rw [List.flatten_cons, ih]
      · rw [ih, List.append_assoc]

/-- What is filled is not empty, and not too long. -/
theorem of_mem_fill {n : Nat} (pieces : List (List α)) :
    ∀ held : List α, held.length ≤ n → ∀ piece ∈ fill n held pieces,
      piece ≠ [] ∧ piece.length ≤ n := by
  induction pieces with
  | nil => intro held hheld; exact of_mem_closed hheld
  | cons piece pieces ih =>
    intro held hheld filled hmem
    rw [fill] at hmem
    split at hmem
    next =>
      rcases List.mem_append.mp hmem with hmem | hmem
      · rcases List.mem_append.mp hmem with hmem | hmem
        · exact of_mem_closed hheld filled hmem
        · exact of_mem_blocks piece filled hmem
      · exact ih [] (Nat.zero_le n) filled hmem
    next hshort =>
      split at hmem
      next hfull =>
        rcases List.mem_cons.mp hmem with rfl | hmem
        · exact ⟨hfull.1, hheld⟩
        · exact ih piece (Nat.le_of_not_lt hshort) filled hmem
      next hroom =>
        refine ih (held ++ piece) ?_ filled hmem
        rw [List.length_append]
        by_cases hnil : held = []
        · rw [hnil, List.length_nil]; omega
        · have : ¬ n < held.length + piece.length := fun hlt => hroom ⟨hnil, hlt⟩
          omega

/-! ## Good elements -/

section

variable {good : α → Bool} {n : Nat}

theorem forall_mem_append {p : List α → Prop} {xs ys : List (List α)} :
    (∀ x ∈ xs ++ ys, p x) ↔ (∀ x ∈ xs, p x) ∧ ∀ x ∈ ys, p x := by
  refine ⟨fun h => ⟨fun x hx => h x (List.mem_append_left _ hx),
    fun x hx => h x (List.mem_append_right _ hx)⟩, fun h x hx => ?_⟩
  exact (List.mem_append.mp hx).elim (h.1 x) (h.2 x)

/-- What is held is empty or good. -/
def Ready (good : α → Bool) (held : List α) : Prop := held = [] ∨ held.any good = true

theorem Ready.closed {held : List α} (h : Ready good held) :
    ∀ piece ∈ closed held, piece.any good = true := by
  intro piece hmem
  rcases h with rfl | hgood
  · exact absurd hmem List.not_mem_nil
  · cases held with
    | nil => exact absurd hmem List.not_mem_nil
    | cons a l => rw [List.mem_singleton.mp hmem]; exact hgood

/-- The last piece finds what it needs: a good element of its own, or blocks to
be cut into, or room in what is held. -/
def Placed (good : α → Bool) (n held : Nat) (last : List α) : Prop :=
  last.any good = true ∨ n < last.length ∨ (0 < held ∧ held + last.length ≤ n)

theorem fill_last_good {held last : List α} (hheld : Ready good held) (hlast : last ≠ []) :
    (∀ piece ∈ fill n held [last], piece.any good = true)
      ↔ (n < last.length → ∀ block ∈ blocks n last, block.any good = true)
        ∧ Placed good n held.length last := by
  have hsingle : ∀ l : List α, (∀ piece ∈ [l], piece.any good = true) ↔ l.any good = true :=
    fun l => ⟨fun h => h l List.mem_cons_self, fun h piece hmem => List.mem_singleton.mp hmem ▸ h⟩
  by_cases hlong : n < last.length
  · rw [fill, if_pos hlong, fill, closed, List.append_nil, forall_mem_append]
    exact ⟨fun h => ⟨fun _ => h.2, .inr (.inl hlong)⟩, fun h => ⟨hheld.closed, h.1 hlong⟩⟩
  · have hblocks : n < last.length → ∀ block ∈ blocks n last, block.any good = true :=
      fun h => absurd h hlong
    rw [fill, if_neg hlong]
    by_cases hfull : held ≠ [] ∧ n < held.length + last.length
    · -- what is held is closed, and the last piece stands alone
      rw [if_pos hfull, fill, closed_of_ne_nil hlast]
      constructor
      · intro h
        exact ⟨hblocks, .inl (h last (List.mem_cons_of_mem _ List.mem_cons_self))⟩
      · rintro ⟨_, hgood | hlong' | hroom⟩ piece hmem
        · rcases List.mem_cons.mp hmem with rfl | hmem
          · exact hheld.resolve_left hfull.1
          · exact (hsingle last).mpr hgood piece hmem
        · exact absurd hlong' hlong
        · omega
    · rw [if_neg hfull, fill,
        closed_of_ne_nil (List.append_ne_nil_of_right_ne_nil _ hlast), hsingle, List.any_append,
        Bool.or_eq_true]
      constructor
      · rintro (hgood | hgood)
        · refine ⟨hblocks, .inr (.inr ?_)⟩
          have hne : held ≠ [] := by
            rintro rfl
            exact absurd hgood Bool.false_ne_true
          have hpos := List.length_pos_of_ne_nil hne
          have hroom : ¬ n < held.length + last.length := fun h => hfull ⟨hne, h⟩
          omega
        · exact ⟨hblocks, .inl hgood⟩
      · rintro ⟨_, hgood | hlong' | hroom⟩
        · exact .inr hgood
        · exact absurd hlong' hlong
        · exact .inl (hheld.resolve_left (List.ne_nil_of_length_pos hroom.1))

/-- **When every piece is good**, where all pieces but the last are. -/
theorem fill_good_iff {last : List α} (hlast : last ≠ []) (init : List (List α)) :
    ∀ held : List α, Ready good held → (∀ piece ∈ init, piece.any good = true) →
    ((∀ piece ∈ fill n held (init ++ [last]), piece.any good = true)
      ↔ (∀ piece ∈ init ++ [last], n < piece.length →
          ∀ block ∈ blocks n piece, block.any good = true)
        ∧ Placed good n (heldLength n held.length init) last) := by
  induction init with
  | nil =>
    intro held hheld _
    rw [List.nil_append, fill_last_good hheld hlast, heldLength]
    refine and_congr_left fun _ => ?_
    exact ⟨fun h piece hmem => List.mem_singleton.mp hmem ▸ h, fun h => h last List.mem_cons_self⟩
  | cons piece init ih =>
    intro held hheld hinit
    have hpiece : piece.any good = true := hinit piece List.mem_cons_self
    have hrest : ∀ piece ∈ init, piece.any good = true :=
      fun piece hmem => hinit piece (List.mem_cons_of_mem _ hmem)
    rw [List.cons_append, List.forall_mem_cons, fill, heldLength]
    by_cases hlong : n < piece.length
    · rw [if_pos hlong, if_pos hlong, forall_mem_append, forall_mem_append,
        ih [] (.inl rfl) hrest]
      constructor
      · rintro ⟨⟨_, hblocks⟩, hlater, hplaced⟩
        exact ⟨⟨fun _ => hblocks, hlater⟩, hplaced⟩
      · rintro ⟨⟨hblocks, hlater⟩, hplaced⟩
        exact ⟨⟨hheld.closed, hblocks hlong⟩, hlater, hplaced⟩
    · have hshort : (n < piece.length → ∀ block ∈ blocks n piece, block.any good = true) :=
        fun h => absurd h hlong
      rw [if_neg hlong, if_neg hlong]
      by_cases hfull : held ≠ [] ∧ n < held.length + piece.length
      · rw [if_pos hfull, if_pos hfull.2, List.forall_mem_cons, ih piece (.inr hpiece) hrest]
        constructor
        · rintro ⟨_, hlater, hplaced⟩
          exact ⟨⟨hshort, hlater⟩, hplaced⟩
        · rintro ⟨⟨_, hlater⟩, hplaced⟩
          exact ⟨hheld.resolve_left hfull.1, hlater, hplaced⟩
      · have hjoined : Ready good (held ++ piece) :=
          .inr (by rw [List.any_append, hpiece, Bool.or_true])
        have hroom : ¬ n < held.length + piece.length := by
          intro hlt
          by_cases hnil : held = []
          · rw [hnil, List.length_nil, Nat.zero_add] at hlt
            exact hlong hlt
          · exact hfull ⟨hnil, hlt⟩
        rw [if_neg hfull, if_neg hroom, ih (held ++ piece) hjoined hrest, List.length_append]
        constructor
        · rintro ⟨hlater, hplaced⟩
          exact ⟨⟨hshort, hlater⟩, hplaced⟩
        · rintro ⟨⟨_, hlater⟩, hplaced⟩
          exact ⟨hlater, hplaced⟩

end

/-! ## The first element with a property -/

theorem exists_cut (p : α → Prop) (l : List α) :
    (∀ a ∈ l, ¬ p a)
      ∨ ∃ before a after, l = before ++ a :: after ∧ (∀ b ∈ before, ¬ p b) ∧ p a := by
  induction l with
  | nil => exact .inl fun a hmem => absurd hmem List.not_mem_nil
  | cons a l ih =>
    by_cases ha : p a
    · exact .inr ⟨[], a, l, rfl, fun b hmem => absurd hmem List.not_mem_nil, ha⟩
    · rcases ih with hnone | ⟨before, b, after, rfl, hbefore, hb⟩
      · exact .inl (List.forall_mem_cons.mpr ⟨ha, hnone⟩)
      · exact .inr ⟨a :: before, b, after, rfl, List.forall_mem_cons.mpr ⟨ha, hbefore⟩, hb⟩

theorem cut_unique {p : α → Prop} {a a' : α} {after after' : List α} (before : List α) :
    ∀ before', before ++ a :: after = before' ++ a' :: after' →
      (∀ b ∈ before, ¬ p b) → p a → (∀ b ∈ before', ¬ p b) → p a' →
      before = before' ∧ a = a' ∧ after = after' := by
  induction before with
  | nil =>
    intro before' heq _ ha hbefore' _
    cases before' with
    | nil =>
      obtain ⟨rfl, rfl⟩ := List.cons.inj heq
      exact ⟨rfl, rfl, rfl⟩
    | cons b before' =>
      obtain ⟨rfl, _⟩ := List.cons.inj heq
      exact absurd ha (hbefore' a List.mem_cons_self)
  | cons b before ih =>
    intro before' heq hbefore ha hbefore' ha'
    cases before' with
    | nil =>
      obtain ⟨rfl, _⟩ := List.cons.inj heq
      exact absurd ha' (hbefore b List.mem_cons_self)
    | cons b' before' =>
      obtain ⟨rfl, hrest⟩ := List.cons.inj heq
      obtain ⟨rfl, hsame⟩ := ih before' hrest
        (fun c hmem => hbefore c (List.mem_cons_of_mem _ hmem)) ha
        (fun c hmem => hbefore' c (List.mem_cons_of_mem _ hmem)) ha'
      exact ⟨rfl, hsame⟩

/-! ## Leaving nothing out -/

section

variable {β : Type}

/-- Where every element counts, a sublist that comes to the same is all of it. -/
theorem eq_of_sublist_of_flatMap_eq {f : α → List β} {xs ys : List α} (h : xs.Sublist ys)
    (hf : ∀ y ∈ ys, f y ≠ []) (heq : xs.flatMap f = ys.flatMap f) : xs = ys := by
  induction h with
  | slnil => rfl
  | @cons xs ys a hsub ih =>
    have hlength := (hsub.flatMap f).length_le
    have hpos := List.length_pos_of_ne_nil (hf a List.mem_cons_self)
    have hsum := congrArg List.length heq
    rw [List.flatMap_cons, List.length_append] at hsum
    omega
  | @cons_cons xs ys a _ ih =>
    rw [List.flatMap_cons, List.flatMap_cons] at heq
    rw [ih (fun y hmem => hf y (List.mem_cons_of_mem _ hmem)) (List.append_cancel_left heq)]

/-- What takes less from every element and comes to the same takes the same. -/
theorem eq_of_flatMap_eq {f g : α → List β} (h : ∀ a, (f a).Sublist (g a)) (l : List α) :
    l.flatMap f = l.flatMap g → ∀ a ∈ l, f a = g a := by
  induction l with
  | nil => intro _ a hmem; exact absurd hmem List.not_mem_nil
  | cons b l ih =>
    intro heq a hmem
    have hrest := (List.Sublist.flatMap_right l fun a _ => h a).length_le
    have hfirst := (h b).length_le
    rw [List.flatMap_cons, List.flatMap_cons] at heq
    have hsum := congrArg List.length heq
    rw [List.length_append, List.length_append] at hsum
    have hb : f b = g b := (h b).eq_of_length (by omega)
    rcases List.mem_cons.mp hmem with rfl | hmem
    · exact hb
    · rw [hb] at heq
      exact ih (List.append_cancel_left heq) a hmem

end

end Cutting
