import Mathlib.Data.List.Perm.Subperm
import Mathlib.Data.List.Count

/-!
# Walks along fallbacks

Candidates of which each may name the next one, by a key that somebody else
wrote: the names may form cycles, or lead nowhere. `walkFrom` tries one
candidate after the other, as long as the result of a trial passes it on,
and goes on only to keys that are allowed and that it has not been to. Every
step takes one allowed key off those that are left (`untried_lt`), so the
walk ends; `walkFrom_keys` says which candidates it has tried and
`walkFrom_ending` where it has ended.
-/

namespace Fallback

variable {ι ρ σ ω : Type} [DecidableEq ι]

/-- Candidates under their keys, with the key of the next one. -/
structure Candidates (ι ρ : Type) where
  key : ρ → ι
  find : ι → Option ρ
  next : ρ → Option ι
  allowed : List ι
  key_of_find : ∀ i r, find i = some r → key r = i

/-- A walk ends with the result of its last trial, or at a key of no
candidate. -/
inductive Ending (ι ω : Type)
  | answered (x : ω)
  | unknown (i : ι)

structure Walked (ι ρ σ ω : Type) where
  state : σ
  ending : Ending ι ω
  tried : List (ρ × ω)

/-- How many allowed keys have not been visited. -/
def untried (allowed visited : List ι) : Nat :=
  allowed.countP (fun i => decide (i ∉ visited))

/-- A visit to an allowed key leaves one less. -/
theorem untried_lt {allowed visited : List ι} {i : ι} (hnew : i ∉ visited)
    (hallowed : i ∈ allowed) : untried allowed (i :: visited) < untried allowed visited := by
  unfold untried
  obtain ⟨l₁, l₂, rfl⟩ := List.append_of_mem hallowed
  have hle : ∀ l : List ι, l.countP (fun k => decide (k ∉ i :: visited))
      ≤ l.countP (fun k => decide (k ∉ visited)) := fun l =>
    List.countP_mono_left fun k _ hk => by
      simp only [List.mem_cons, not_or, decide_eq_true_eq] at hk ⊢
      exact hk.2
  have h₁ := hle l₁
  have h₂ := hle l₂
  rw [List.countP_append, List.countP_append, List.countP_cons_of_neg (by simp),
    List.countP_cons_of_pos (by simpa using hnew)]
  omega

/-- The walk from the candidate `r`; `visited` are the keys it has been to,
that of `r` among them. -/
def walkFrom (c : Candidates ι ρ) (trial : σ → ρ → σ × ω) (passes : ω → Bool) (s : σ)
    (visited : List ι) (r : ρ) : Walked ι ρ σ ω :=
  let x := trial s r
  match c.next r with
  | none => { state := x.1, ending := .answered x.2, tried := [(r, x.2)] }
  | some i =>
    if _h : passes x.2 = true ∧ i ∉ visited ∧ i ∈ c.allowed then
      match c.find i with
      | none => { state := x.1, ending := .unknown i, tried := [(r, x.2)] }
      | some r' =>
        let rest := walkFrom c trial passes x.1 (i :: visited) r'
        { rest with tried := (r, x.2) :: rest.tried }
    else { state := x.1, ending := .answered x.2, tried := [(r, x.2)] }
termination_by untried c.allowed visited
decreasing_by exact untried_lt _h.2.1 _h.2.2

/-- The walk to the candidate of a key. -/
def walk (c : Candidates ι ρ) (trial : σ → ρ → σ × ω) (passes : ω → Bool) (s : σ) (i : ι) :
    Walked ι ρ σ ω :=
  match c.find i with
  | none => { state := s, ending := .unknown i, tried := [] }
  | some r => walkFrom c trial passes s [c.key r] r

variable (c : Candidates ι ρ) (trial : σ → ρ → σ × ω) (passes : ω → Bool)

/-- The keys that have been tried. -/
def Walked.keys (w : Walked ι ρ σ ω) : List ι :=
  w.tried.map fun t => c.key t.1

/-- A walk tries its first candidate, and then candidates of keys that are
allowed, none of them twice and none it had been to. -/
theorem walkFrom_keys (s : σ) (visited : List ι) (r : ρ) :
    ∃ rest, (walkFrom c trial passes s visited r).keys c = c.key r :: rest ∧ rest.Nodup ∧
      ∀ i ∈ rest, i ∉ visited ∧ i ∈ c.allowed := by
  fun_induction walkFrom c trial passes s visited r with
  | case1 => exact ⟨[], rfl, List.nodup_nil, by simp⟩
  | case2 => exact ⟨[], rfl, List.nodup_nil, by simp⟩
  | case3 s visited r x i hnext hpass r' hfind rest ih =>
    obtain ⟨others, hkeys, hnodup, hfresh⟩ := ih
    have hkey : c.key r' = i := c.key_of_find i r' hfind
    refine ⟨i :: others, ?_, ?_, ?_⟩
    · show c.key r :: rest.keys c = _
      rw [hkeys, hkey]
    · exact List.nodup_cons.mpr ⟨fun hi => (hfresh i hi).1 List.mem_cons_self, hnodup⟩
    · intro k hk
      rcases List.mem_cons.mp hk with rfl | hk
      · exact hpass.2
      · exact ⟨fun hv => (hfresh k hk).1 (List.mem_cons_of_mem _ hv), (hfresh k hk).2⟩
  | case4 => exact ⟨[], rfl, List.nodup_nil, by simp⟩

/-- What every trial establishes holds of every trial of the walk. -/
theorem walkFrom_tried {Q : ρ → ω → Prop} (hQ : ∀ s r, Q r (trial s r).2) (s : σ)
    (visited : List ι) (r : ρ) :
    ∀ t ∈ (walkFrom c trial passes s visited r).tried, Q t.1 t.2 := by
  fun_induction walkFrom c trial passes s visited r with
  | case1 => simpa using hQ _ _
  | case2 => simpa using hQ _ _
  | case3 s visited r x i hnext hpass r' hfind rest ih =>
    intro t ht
    rcases List.mem_cons.mp ht with rfl | ht
    · exact hQ s r
    · exact ih t ht
  | case4 => simpa using hQ _ _

/-- Where a walk has ended: with the result of a trial, or at a key that the
last candidate names, that is allowed and that no candidate has. -/
def EndsAt (w : Walked ι ρ σ ω) : Prop :=
  match w.ending with
  | .answered x => ∃ r, (r, x) ∈ w.tried
  | .unknown i => c.find i = none ∧ i ∈ c.allowed ∧
      ∃ r x, (r, x) ∈ w.tried ∧ c.next r = some i ∧ passes x = true

omit [DecidableEq ι] in
theorem EndsAt.cons {r : ρ} {x : ω} {w : Walked ι ρ σ ω} (h : EndsAt c passes w) :
    EndsAt c passes { w with tried := (r, x) :: w.tried } := by
  unfold EndsAt at h ⊢
  dsimp only
  split at h
  · obtain ⟨r', hmem⟩ := h
    exact ⟨r', List.mem_cons_of_mem _ hmem⟩
  · obtain ⟨hfind, hallowed, r', x', hmem, hnext⟩ := h
    exact ⟨hfind, hallowed, r', x', List.mem_cons_of_mem _ hmem, hnext⟩

theorem walkFrom_ending (s : σ) (visited : List ι) (r : ρ) :
    EndsAt c passes (walkFrom c trial passes s visited r) := by
  fun_induction walkFrom c trial passes s visited r with
  | case1 => exact ⟨_, List.mem_cons_self⟩
  | case2 s visited r x i hnext hpass hfind =>
    exact ⟨hfind, hpass.2.2, r, x.2, List.mem_cons_self, hnext, hpass.1⟩
  | case3 s visited r x i hnext hpass r' hfind rest ih => exact EndsAt.cons c passes ih
  | case4 => exact ⟨_, List.mem_cons_self⟩

/-- No candidate is tried twice. -/
theorem walk_nodup (s : σ) (i : ι) : ((walk c trial passes s i).keys c).Nodup := by
  unfold walk
  split
  · exact List.nodup_nil
  next r hfind =>
    obtain ⟨rest, hkeys, hnodup, hfresh⟩ :=
      walkFrom_keys c trial passes s [c.key r] r
    rw [hkeys]
    exact List.nodup_cons.mpr
      ⟨fun hmem => (hfresh _ hmem).1 (List.mem_singleton.mpr rfl), hnodup⟩

theorem walk_tried {Q : ρ → ω → Prop} (hQ : ∀ s r, Q r (trial s r).2) (s : σ) (i : ι) :
    ∀ t ∈ (walk c trial passes s i).tried, Q t.1 t.2 := by
  unfold walk
  split
  · exact fun t ht => by cases ht
  · exact walkFrom_tried c trial passes hQ s _ _

/-- A walk ends, and at a key without a candidate only where it began there
or where the last candidate led it there. -/
theorem walk_ending (s : σ) (i : ι) :
    EndsAt c passes (walk c trial passes s i) ∨
      (c.find i = none ∧ (walk c trial passes s i).ending = .unknown i) := by
  unfold walk
  split
  next hnone => exact Or.inr ⟨hnone, rfl⟩
  next r hfind => exact Or.inl (walkFrom_ending c trial passes s _ r)

/-- How many candidates are tried: the first, and each allowed key once. -/
theorem walk_length (s : σ) (i : ι) :
    (walk c trial passes s i).tried.length ≤ c.allowed.length + 1 := by
  unfold walk
  split
  · exact Nat.zero_le _
  next r hfind =>
    obtain ⟨rest, hkeys, hnodup, hfresh⟩ :=
      walkFrom_keys c trial passes s [c.key r] r
    have hlength := congrArg List.length hkeys
    unfold Walked.keys at hlength
    rw [List.length_map, List.length_cons] at hlength
    have hle : rest.length ≤ c.allowed.length :=
      (List.Nodup.subperm hnodup fun k hk => (hfresh k hk).2).length_le
    omega

/-! ## Groups of a list -/

section Groups

variable {β γ κ : Type}

/-- Two members of one name belong to one group, with all that stands
between them, where no two groups have a name in common. -/
theorem flatMap_split (name : γ → κ) (members : γ → List β) (key : β → κ) :
    ∀ (groups : List γ), (groups.map name).Nodup →
      (∀ grp ∈ groups, ∀ b ∈ members grp, key b = name grp) →
      ∀ (pre : List β) (b : β) (mid : List β) (b' : β) (post : List β),
        groups.flatMap members = pre ++ b :: (mid ++ b' :: post) → key b = key b' →
        ∃ grp ∈ groups, ∃ pre' post', members grp = pre' ++ b :: (mid ++ b' :: post')
  | [], _, _, pre, b, mid, b', post, h, _ => by simp at h
  | grp :: groups, hnodup, hkeys, pre, b, mid, b', post, h, hkey => by
    rw [List.map_cons, List.nodup_cons] at hnodup
    have hown : ∀ x ∈ members grp, key x = name grp := hkeys grp List.mem_cons_self
    have hother : ∀ x ∈ groups.flatMap members, key x ≠ name grp := by
      intro x hx he
      obtain ⟨grp', hmem, hx'⟩ := List.mem_flatMap.mp hx
      have hx'' := hkeys grp' (List.mem_cons_of_mem _ hmem) x hx'
      exact hnodup.1 (he ▸ hx'' ▸ List.mem_map_of_mem hmem)
    have ih := flatMap_split name members key groups hnodup.2
      (fun grp' hmem => hkeys grp' (List.mem_cons_of_mem _ hmem))
    have hlater : ∀ pre', groups.flatMap members = pre' ++ b :: (mid ++ b' :: post) →
        ∃ grp' ∈ grp :: groups, ∃ pre' post', members grp' = pre' ++ b :: (mid ++ b' :: post') := by
      intro pre' hrest
      obtain ⟨grp', hmem, hsplit⟩ := ih pre' b mid b' post hrest hkey
      exact ⟨grp', List.mem_cons_of_mem _ hmem, hsplit⟩
    rw [List.flatMap_cons] at h
    rcases List.append_eq_append_iff.mp h with ⟨as, rfl, hrest⟩ | ⟨cs, hgrp, hrest⟩
    · exact hlater as hrest
    · rcases List.cons_eq_append_iff.mp hrest with ⟨rfl, hrest'⟩ | ⟨cs', rfl, hrest'⟩
      · exact hlater [] hrest'
      · have hb : key b = name grp := hown b (by rw [hgrp]; simp)
        -- `b'` is of the same group: it has the name of `b`
        rcases List.append_eq_append_iff.mp hrest' with ⟨as, rfl, hfar⟩ | ⟨ds, rfl, hfar⟩
        · rcases List.cons_eq_append_iff.mp hfar with ⟨rfl, hfar'⟩ | ⟨ds', rfl, hfar'⟩
          · refine absurd ?_ (hother b' (by rw [hfar']; simp))
            rw [← hkey, hb]
          · exact ⟨grp, List.mem_cons_self, pre, ds', hgrp⟩
        · refine absurd ?_ (hother b' (by rw [hfar]; simp))
          rw [← hkey, hb]

end Groups

end Fallback
