import Mathlib.Data.List.Nodup

/-!
# The first of every key

A list whose elements may have a key. `keepFirst` keeps an element that has
none and, of the elements with one key, the first; `seen` are the keys that
came before. What is kept is a sublist (`keepFirst_sublist`) with the same
elements without a key (`filter_keepFirst`) and the first element of every key
in its place (`keepFirst_split`); no key comes twice (`nodup_keepFirst`), and a
list in which none does is left as it is (`keepFirst_of_nodup`).
-/

namespace Firsts

variable {α β κ : Type} [DecidableEq κ]

/-- The elements without a key, and the first of every key that is not in
`seen`. -/
def keepFirst (key : α → Option κ) (seen : List κ) : List α → List α
  | [] => []
  | a :: l =>
    match key a with
    | none => a :: keepFirst key seen l
    | some k => if k ∈ seen then keepFirst key seen l else a :: keepFirst key (k :: seen) l

/-- The element has no key. -/
def keyless (key : α → Option κ) (a : α) : Bool := (key a).isNone

variable {key : α → Option κ} {seen : List κ} {a : α} {k : κ}

theorem keepFirst_none (h : key a = none) (l : List α) :
    keepFirst key seen (a :: l) = a :: keepFirst key seen l := by
  simp only [keepFirst, h]

theorem keepFirst_seen (h : key a = some k) (hk : k ∈ seen) (l : List α) :
    keepFirst key seen (a :: l) = keepFirst key seen l := by
  simp only [keepFirst, h, if_pos hk]

theorem keepFirst_new (h : key a = some k) (hk : k ∉ seen) (l : List α) :
    keepFirst key seen (a :: l) = a :: keepFirst key (k :: seen) l := by
  simp only [keepFirst, h, if_neg hk]

theorem keepFirst_sublist (l : List α) : ∀ seen, (keepFirst key seen l).Sublist l := by
  induction l with
  | nil => intro seen; exact List.Sublist.refl _
  | cons a l ih =>
    intro seen
    cases ha : key a with
    | none => rw [keepFirst_none ha]; exact (ih seen).cons_cons a
    | some k =>
      by_cases hk : k ∈ seen
      · rw [keepFirst_seen ha hk]; exact (ih seen).cons a
      · rw [keepFirst_new ha hk]; exact (ih _).cons_cons a

/-- Nothing without a key is lost. -/
theorem filter_keepFirst (l : List α) :
    ∀ seen, (keepFirst key seen l).filter (keyless key) = l.filter (keyless key) := by
  induction l with
  | nil => intro seen; rfl
  | cons a l ih =>
    intro seen
    cases ha : key a with
    | none =>
      have hkeyless : keyless key a = true := congrArg Option.isNone ha
      rw [keepFirst_none ha, List.filter_cons_of_pos hkeyless,
        List.filter_cons_of_pos hkeyless, ih]
    | some k =>
      have hkeyed : ¬ keyless key a = true := by rw [keyless, ha]; exact Bool.false_ne_true
      rw [List.filter_cons_of_neg hkeyed]
      by_cases hk : k ∈ seen
      · rw [keepFirst_seen ha hk, ih]
      · rw [keepFirst_new ha hk, List.filter_cons_of_neg hkeyed, ih]

/-- A list is gone through in two parts; the second knows the keys of the
first. -/
theorem keepFirst_append (l m : List α) : ∀ seen, ∃ seen',
    keepFirst key seen (l ++ m) = keepFirst key seen l ++ keepFirst key seen' m
      ∧ ∀ k ∈ seen', k ∈ seen ∨ k ∈ l.filterMap key := by
  induction l with
  | nil => intro seen; exact ⟨seen, rfl, fun k hk => .inl hk⟩
  | cons a l ih =>
    intro seen
    rw [List.cons_append]
    cases ha : key a with
    | none =>
      obtain ⟨seen', heq, hmem⟩ := ih seen
      refine ⟨seen', ?_, fun k hk => ?_⟩
      · rw [keepFirst_none ha, keepFirst_none ha, heq, List.cons_append]
      · rw [List.filterMap_cons_none ha]; exact hmem k hk
    | some k =>
      rw [List.filterMap_cons_some ha]
      by_cases hk : k ∈ seen
      · obtain ⟨seen', heq, hmem⟩ := ih seen
        refine ⟨seen', ?_, fun k' hk' => (hmem k' hk').imp_right (List.mem_cons_of_mem _)⟩
        rw [keepFirst_seen ha hk, keepFirst_seen ha hk, heq]
      · obtain ⟨seen', heq, hmem⟩ := ih (k :: seen)
        refine ⟨seen', ?_, fun k' hk' => ?_⟩
        · rw [keepFirst_new ha hk, keepFirst_new ha hk, heq, List.cons_append]
        · rcases hmem k' hk' with hseen | hlater
          · rcases List.mem_cons.mp hseen with rfl | hseen
            · exact .inr List.mem_cons_self
            · exact .inl hseen
          · exact .inr (List.mem_cons_of_mem _ hlater)

/-- An element without a key, or the first with its key, is kept where it is. -/
theorem keepFirst_split {before after : List α}
    (h : ∀ k, key a = some k → k ∉ before.filterMap key) :
    ∃ front back, keepFirst key [] (before ++ a :: after) = front ++ a :: back
      ∧ front.Sublist before ∧ back.Sublist after := by
  obtain ⟨seen, heq, hmem⟩ := @keepFirst_append _ _ _ key before (a :: after) []
  rw [heq]
  cases ha : key a with
  | none =>
    rw [keepFirst_none ha]
    exact ⟨_, _, rfl, keepFirst_sublist _ _, keepFirst_sublist _ _⟩
  | some k =>
    have hnew : k ∉ seen := fun hk => (hmem k hk).elim List.not_mem_nil (h k ha)
    rw [keepFirst_new ha hnew]
    exact ⟨_, _, rfl, keepFirst_sublist _ _, keepFirst_sublist _ _⟩

/-- The keys that are kept differ from each other and from those before. -/
theorem nodup_keepFirst (l : List α) : ∀ seen,
    ((keepFirst key seen l).filterMap key).Nodup
      ∧ ∀ k ∈ (keepFirst key seen l).filterMap key, k ∉ seen := by
  induction l with
  | nil => intro seen; exact ⟨List.nodup_nil, fun k hk => absurd hk List.not_mem_nil⟩
  | cons a l ih =>
    intro seen
    cases ha : key a with
    | none => rw [keepFirst_none ha, List.filterMap_cons_none ha]; exact ih seen
    | some k =>
      by_cases hk : k ∈ seen
      · rw [keepFirst_seen ha hk]; exact ih seen
      · rw [keepFirst_new ha hk, List.filterMap_cons_some ha]
        obtain ⟨hnodup, hnew⟩ := ih (k :: seen)
        refine ⟨List.nodup_cons.mpr ⟨fun hmem => hnew k hmem List.mem_cons_self, hnodup⟩, ?_⟩
        intro k' hk'
        rcases List.mem_cons.mp hk' with rfl | hk'
        · exact hk
        · exact fun hmem => hnew k' hk' (List.mem_cons_of_mem _ hmem)

/-- Where no key comes twice, all is kept. -/
theorem keepFirst_of_nodup (l : List α) : ∀ seen,
    (l.filterMap key).Nodup → (∀ k ∈ l.filterMap key, k ∉ seen) → keepFirst key seen l = l := by
  induction l with
  | nil => intro seen _ _; rfl
  | cons a l ih =>
    intro seen hnodup hnew
    cases ha : key a with
    | none =>
      rw [List.filterMap_cons_none ha] at hnodup hnew
      rw [keepFirst_none ha, ih seen hnodup hnew]
    | some k =>
      rw [List.filterMap_cons_some ha] at hnodup hnew
      obtain ⟨hk, hnodup⟩ := List.nodup_cons.mp hnodup
      rw [keepFirst_new ha (hnew k List.mem_cons_self), ih (k :: seen) hnodup]
      intro k' hk' hmem
      rcases List.mem_cons.mp hmem with rfl | hmem
      · exact hk hk'
      · exact hnew k' (List.mem_cons_of_mem _ hk') hmem

/-- A second pass finds nothing to drop. -/
theorem keepFirst_keepFirst (l : List α) :
    keepFirst key [] (keepFirst key [] l) = keepFirst key [] l :=
  keepFirst_of_nodup _ [] (nodup_keepFirst l []).1 fun _ _ => List.not_mem_nil

/-- Only the keys are looked at. -/
theorem map_keepFirst {key' : β → Option κ} {f : α → β} (h : ∀ a, key' (f a) = key a)
    (l : List α) : ∀ seen, (keepFirst key seen l).map f = keepFirst key' seen (l.map f) := by
  induction l with
  | nil => intro seen; rfl
  | cons a l ih =>
    intro seen
    rw [List.map_cons]
    cases ha : key a with
    | none => rw [keepFirst_none ha, keepFirst_none ((h a).trans ha), List.map_cons, ih]
    | some k =>
      by_cases hk : k ∈ seen
      · rw [keepFirst_seen ha hk, keepFirst_seen ((h a).trans ha) hk, ih]
      · rw [keepFirst_new ha hk, keepFirst_new ((h a).trans ha) hk, List.map_cons, ih]

end Firsts
