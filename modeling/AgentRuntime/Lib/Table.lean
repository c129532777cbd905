import Mathlib.Data.List.Nodup
import Mathlib.Data.List.Count

/-!
# Tables with a unique key

A table is a list of rows whose keys do not repeat; the proof is a field, so
a table with two rows of one key cannot be built. `find?` looks a key up,
`put` overwrites the row of the same key and does nothing when there is
none, `insert?` adds a row and refuses a key that is taken (the unique
constraint of a relational table), `upsert` does whichever applies, `erase`
drops a row, `filter` drops several, and `updateWhere` is the conditional
update of one row that reports whether it matched. The lemmas say what each
of them does to a later lookup (`find?_put`, `find?_insert?`,
`find?_upsert`, `find?_erase`, `find?_filter`, `find?_mapRows`) and to a
count of rows (`countP_put`, `countP_insert?`, `countP_erase`).
-/

namespace Keyed

/-- The keys of the rows repeat neither each other nor one of `seen`. -/
def Unseen {κ α : Type} (key : α → κ) (seen : List κ) (l : List α) : Prop :=
  (l.map key).Nodup ∧ ∀ a ∈ l, key a ∉ seen

theorem Unseen.nil {κ α : Type} {key : α → κ} {seen : List κ} : Unseen key seen [] :=
  ⟨List.nodup_nil, fun _ h => (nomatch h)⟩

/-- A row with a new key goes in front of rows that have another one. -/
theorem Unseen.cons {κ α : Type} {key : α → κ} {seen : List κ} {a : α} {l : List α}
    (h : Unseen key (key a :: seen) l) (hnew : key a ∉ seen) : Unseen key seen (a :: l) := by
  obtain ⟨hnodup, hseen⟩ := h
  refine ⟨?_, fun b hb => ?_⟩
  · rw [List.map_cons, List.nodup_cons]
    refine ⟨fun hmem => ?_, hnodup⟩
    obtain ⟨b, hb, hkey⟩ := List.mem_map.mp hmem
    exact hseen b hb (hkey ▸ List.mem_cons_self)
  · rcases List.mem_cons.mp hb with rfl | hrest
    · exact hnew
    · exact fun hmem => hseen b hrest (List.mem_cons_of_mem _ hmem)

/-- Rows of type `α` with pairwise different keys. -/
structure Table {κ α : Type} (key : α → κ) where
  rows : List α
  nodup : (rows.map key).Nodup

namespace Table

variable {κ α : Type} {key : α → κ}

def empty : Table key := ⟨[], List.nodup_nil⟩

@[simp] theorem rows_empty : (empty : Table key).rows = [] := rfl

theorem nodup_concat (t : Table key) (a : α) (h : key a ∉ t.rows.map key) :
    ((t.rows ++ [a]).map key).Nodup := by
  rw [List.map_append, List.map_singleton]
  exact List.nodup_append_comm.mp (List.nodup_cons.mpr ⟨h, t.nodup⟩)

/-- Change every row in a way that keeps its key. -/
def mapRows (t : Table key) (f : α → α) (h : ∀ a, key (f a) = key a) : Table key :=
  ⟨t.rows.map f, by
    have hkeys : (t.rows.map f).map key = t.rows.map key := by
      rw [List.map_map]
      exact List.map_congr_left fun a _ => h a
    rw [hkeys]
    exact t.nodup⟩

theorem rows_injective {t t' : Table key} (h : t.rows = t'.rows) : t = t' := by
  cases t
  cases t'
  cases h
  rfl

variable [DecidableEq κ]

def find? (t : Table key) (k : κ) : Option α :=
  t.rows.find? (fun a => decide (key a = k))

/-- Replacing rows by rows of the same key keeps the keys. -/
theorem map_key_replace (l : List α) (a : α) :
    (l.map (fun r => if key r = key a then a else r)).map key = l.map key := by
  rw [List.map_map]
  apply List.map_congr_left
  intro r _
  by_cases h : key r = key a
  · simp [h]
  · simp [h]

/-- Overwrite the row that has the key of `a`. -/
def put (t : Table key) (a : α) : Table key :=
  ⟨t.rows.map (fun r => if key r = key a then a else r), by
    rw [map_key_replace]
    exact t.nodup⟩

/-- Drop the row of a key. -/
def erase (t : Table key) (k : κ) : Table key :=
  ⟨t.rows.filter (fun r => decide (key r ≠ k)), t.nodup.sublist (List.filter_sublist.map key)⟩

/-- Keep the rows that meet `p`. -/
def filter (t : Table key) (p : α → Bool) : Table key :=
  ⟨t.rows.filter p, t.nodup.sublist (List.filter_sublist.map key)⟩

/-- Change the row of a key where it meets `p`; whether it did. -/
def updateWhere (t : Table key) (k : κ) (p : α → Prop) [DecidablePred p] (f : α → α) :
    Table key × Bool :=
  match t.find? k with
  | none => (t, false)
  | some r => if p r then (t.put (f r), true) else (t, false)

/-- Drop the row of a key where it meets `p`; whether it did. -/
def deleteWhere (t : Table key) (k : κ) (p : α → Prop) [DecidablePred p] : Table key × Bool :=
  match t.find? k with
  | none => (t, false)
  | some r => if p r then (t.erase k, true) else (t, false)

/-- Add a row, unless its key is taken. -/
def insert? (t : Table key) (a : α) : Option (Table key) :=
  if h : key a ∈ t.rows.map key then none
  else some ⟨t.rows ++ [a], nodup_concat t a h⟩

/-- Overwrite the row of the same key, or add one. -/
def upsert (t : Table key) (a : α) : Table key :=
  if h : key a ∈ t.rows.map key then t.put a else ⟨t.rows ++ [a], nodup_concat t a h⟩

@[simp] theorem find?_empty (k : κ) : (empty : Table key).find? k = none := rfl

theorem find?_eq_some {t : Table key} {k : κ} {a : α} :
    t.find? k = some a ↔ a ∈ t.rows ∧ key a = k := by
  constructor
  · intro h
    exact ⟨List.mem_of_find?_eq_some h, by simpa using List.find?_some h⟩
  · rintro ⟨hmem, rfl⟩
    obtain ⟨b, hb⟩ : ∃ b, t.find? (key a) = some b := by
      have := List.find?_isSome (p := fun b => decide (key b = key a)).mpr ⟨a, hmem, by simp⟩
      exact Option.isSome_iff_exists.mp this
    have hkey : key b = key a := by simpa using List.find?_some hb
    have hba : b = a :=
      List.inj_on_of_nodup_map t.nodup (List.mem_of_find?_eq_some hb) hmem hkey
    rw [hb, hba]

theorem find?_eq_none {t : Table key} {k : κ} :
    t.find? k = none ↔ ∀ a ∈ t.rows, key a ≠ k := by
  simp [find?, List.find?_eq_none]

theorem key_of_find? {t : Table key} {k : κ} {a : α} (h : t.find? k = some a) :
    key a = k :=
  (find?_eq_some.mp h).2

theorem mem_of_find? {t : Table key} {k : κ} {a : α} (h : t.find? k = some a) :
    a ∈ t.rows :=
  (find?_eq_some.mp h).1

theorem find?_of_mem {t : Table key} {a : α} (h : a ∈ t.rows) :
    t.find? (key a) = some a :=
  find?_eq_some.mpr ⟨h, rfl⟩

/-- A lookup after an overwrite. -/
theorem find?_put (t : Table key) (a : α) (k : κ) :
    (t.put a).find? k = if k = key a then (t.find? k).map (fun _ => a) else t.find? k := by
  have hfun : (fun r => decide (key (if key r = key a then a else r) = k))
      = fun r => decide (key r = k) := by
    funext r
    by_cases h : key r = key a <;> simp [h]
  unfold put find?
  rw [List.find?_map]
  simp only [Function.comp_def, hfun]
  by_cases hk : k = key a
  · rw [if_pos hk]
    rcases hf : t.rows.find? (fun r => decide (key r = k)) with _ | b
    · rfl
    · have hb : key b = k := by simpa using List.find?_some hf
      simp [hb, hk]
  · rw [if_neg hk]
    rcases hf : t.rows.find? (fun r => decide (key r = k)) with _ | b
    · rfl
    · have hb : key b = k := by simpa using List.find?_some hf
      simp [hb, hk]

theorem find?_put_self {t : Table key} {a b : α} (h : t.find? (key a) = some b) :
    (t.put a).find? (key a) = some a := by
  rw [find?_put, if_pos rfl, h]
  rfl

theorem find?_put_ne {t : Table key} {a : α} {k : κ} (h : k ≠ key a) :
    (t.put a).find? k = t.find? k := by
  rw [find?_put, if_neg h]

/-- The rows after an overwrite: the new one where there was one, and the
others. -/
theorem mem_put {t : Table key} {a x : α} :
    x ∈ (t.put a).rows ↔
      (x = a ∧ ∃ b, t.find? (key a) = some b) ∨ (x ∈ t.rows ∧ key x ≠ key a) := by
  show x ∈ t.rows.map _ ↔ _
  rw [List.mem_map]
  constructor
  · rintro ⟨r, hr, hx⟩
    by_cases hk : key r = key a
    · rw [if_pos hk] at hx
      exact Or.inl ⟨hx.symm, r, hk ▸ find?_of_mem hr⟩
    · rw [if_neg hk] at hx
      subst hx
      exact Or.inr ⟨hr, hk⟩
  · rintro (⟨rfl, b, hb⟩ | ⟨hx, hk⟩)
    · exact ⟨b, mem_of_find? hb, if_pos (key_of_find? hb)⟩
    · exact ⟨x, hx, if_neg hk⟩

theorem insert?_eq_some {t t' : Table key} {a : α} :
    t.insert? a = some t' ↔ t.find? (key a) = none ∧ t'.rows = t.rows ++ [a] := by
  unfold insert?
  by_cases h : key a ∈ t.rows.map key
  · obtain ⟨b, hb, hkey⟩ := List.mem_map.mp h
    have hfind : t.find? (key a) ≠ none := fun hno => find?_eq_none.mp hno b hb hkey
    simp [h, hfind]
  · have hfind : t.find? (key a) = none :=
      find?_eq_none.mpr fun b hb hkey => h (List.mem_map.mpr ⟨b, hb, hkey⟩)
    rw [dif_neg h]
    constructor
    · rintro ⟨rfl⟩
      exact ⟨hfind, rfl⟩
    · rintro ⟨_, hrows⟩
      cases t'
      simp_all

/-- A key that is free can be inserted. -/
theorem exists_insert? {t : Table key} {a : α} (h : t.find? (key a) = none) :
    ∃ t', t.insert? a = some t' := by
  have hnew : key a ∉ t.rows.map key := fun hmem => by
    obtain ⟨b, hb, hkey⟩ := List.mem_map.mp hmem
    exact find?_eq_none.mp h b hb hkey
  exact ⟨_, dif_neg hnew⟩

/-- A lookup after an insertion. -/
theorem find?_insert? {t t' : Table key} {a : α} (h : t.insert? a = some t') (k : κ) :
    t'.find? k = if k = key a then some a else t.find? k := by
  obtain ⟨hnone, hrows⟩ := insert?_eq_some.mp h
  unfold find? at *
  rw [hrows, List.find?_append]
  by_cases hk : k = key a
  · subst hk
    simp [hnone]
  · have : ¬ key a = k := fun he => hk he.symm
    simp [hk, this]

theorem find?_isSome_of_mem {t : Table key} {k : κ} (h : k ∈ t.rows.map key) :
    ∃ a, t.find? k = some a := by
  obtain ⟨a, ha, rfl⟩ := List.mem_map.mp h
  exact ⟨a, find?_of_mem ha⟩

theorem find?_upsert (t : Table key) (a : α) (k : κ) :
    (t.upsert a).find? k = if k = key a then some a else t.find? k := by
  by_cases h : key a ∈ t.rows.map key
  · obtain ⟨b, hb⟩ := find?_isSome_of_mem h
    rw [upsert, dif_pos h, find?_put]
    by_cases hk : k = key a
    · rw [if_pos hk, if_pos hk, hk, hb]
      rfl
    · rw [if_neg hk, if_neg hk]
  · have hins : t.insert? a = some ⟨t.rows ++ [a], nodup_concat t a h⟩ := by
      rw [insert?, dif_neg h]
    rw [upsert, dif_neg h]
    exact find?_insert? hins k

theorem rows_upsert_of_none {t : Table key} {a : α} (h : t.find? (key a) = none) :
    (t.upsert a).rows = t.rows ++ [a] := by
  have hnew : key a ∉ t.rows.map key := fun hmem => by
    obtain ⟨b, hb⟩ := find?_isSome_of_mem hmem
    cases h.symm.trans hb
  rw [upsert, dif_neg hnew]

theorem length_upsert_le (t : Table key) (a : α) :
    (t.upsert a).rows.length ≤ t.rows.length + 1 := by
  unfold upsert
  split
  · show (t.rows.map _).length ≤ _
    rw [List.length_map]
    exact Nat.le_succ _
  · exact Nat.le_of_eq (List.length_append ..)

theorem find?_erase (t : Table key) (k l : κ) :
    (t.erase k).find? l = if l = k then none else t.find? l := by
  by_cases hl : l = k
  · rw [if_pos hl, find?_eq_none]
    intro a ha hkey
    obtain ⟨_, hne⟩ := List.mem_filter.mp ha
    exact of_decide_eq_true hne (hkey.trans hl)
  · rw [if_neg hl]
    show (t.rows.filter _).find? _ = t.rows.find? _
    rw [List.find?_filter]
    congr 1
    funext a
    by_cases ha : key a = l
    · simp [ha, hl]
    · simp [ha]

theorem find?_filter (t : Table key) (p : α → Bool) (k : κ) :
    (t.filter p).find? k = (t.find? k).filter p := by
  cases h : t.find? k with
  | none =>
    refine find?_eq_none.mpr fun a ha => ?_
    exact find?_eq_none.mp h a (List.mem_filter.mp ha).1
  | some r =>
    obtain ⟨hmem, hkey⟩ := find?_eq_some.mp h
    by_cases hp : p r = true
    · rw [Option.filter_some_pos hp]
      exact find?_eq_some.mpr ⟨List.mem_filter.mpr ⟨hmem, hp⟩, hkey⟩
    · rw [Option.filter_some_neg (by simpa using hp)]
      refine find?_eq_none.mpr fun a ha hakey => hp ?_
      obtain ⟨ha, hpa⟩ := List.mem_filter.mp ha
      have hfind := find?_eq_some.mpr ⟨ha, hakey⟩
      cases h.symm.trans hfind
      exact hpa

/-- An overwrite that changes nothing of what `p` says. -/
theorem filter_put {t : Table key} {a : α} {p : α → Bool}
    (h : ∀ r, t.find? (key a) = some r → p r = p a) : (t.put a).filter p = (t.filter p).put a := by
  refine rows_injective ?_
  show (t.rows.map _).filter p = (t.rows.filter p).map _
  rw [List.filter_map]
  refine congrArg _ (List.filter_congr fun r hr => ?_)
  by_cases hk : key r = key a
  · rw [Function.comp_apply, if_pos hk]
    exact (h r (find?_eq_some.mpr ⟨hr, hk⟩)).symm
  · rw [Function.comp_apply, if_neg hk]

/-- Nothing is overwritten where there is no row of the key. -/
theorem put_of_none {t : Table key} {a : α} (h : t.find? (key a) = none) : t.put a = t := by
  refine rows_injective ?_
  show t.rows.map _ = t.rows
  refine (List.map_congr_left fun r hr => ?_).trans (List.map_id _)
  exact if_neg (find?_eq_none.mp h r hr)

/-- The rows of a key: the one it finds, or none. -/
theorem filter_key (t : Table key) (k : κ) :
    t.rows.filter (fun a => decide (key a = k)) = (t.find? k).toList := by
  cases h : t.find? k with
  | none =>
    rw [List.filter_eq_nil_iff.mpr]
    · rfl
    intro a ha
    simpa using find?_eq_none.mp h a ha
  | some r =>
    obtain ⟨hmem, hkey⟩ := find?_eq_some.mp h
    obtain ⟨l₁, l₂, hl⟩ := List.append_of_mem hmem
    have hnd := t.nodup
    rw [hl, List.map_append, List.map_cons, List.nodup_append, List.nodup_cons] at hnd
    obtain ⟨_, ⟨hn₂, _⟩, hdis⟩ := hnd
    have h₁ : l₁.filter (fun a => decide (key a = k)) = [] :=
      List.filter_eq_nil_iff.mpr fun a ha => by
        have := hdis (key a) (List.mem_map_of_mem ha) (key r) List.mem_cons_self
        simpa [← hkey] using this
    have h₂ : l₂.filter (fun a => decide (key a = k)) = [] :=
      List.filter_eq_nil_iff.mpr fun a ha => by
        have : key a ≠ key r := fun he => hn₂ (he ▸ List.mem_map_of_mem ha)
        simpa [← hkey] using this
    rw [hl, List.filter_append, List.filter_cons, h₁, h₂]
    simp [hkey]

theorem find?_mapRows (t : Table key) (f : α → α) (h : ∀ a, key (f a) = key a) (k : κ) :
    (t.mapRows f h).find? k = (t.find? k).map f := by
  unfold mapRows find?
  rw [List.find?_map]
  simp only [Function.comp_def, h]

/-- A conditional update changes the row or nothing. -/
theorem updateWhere_cases (t : Table key) (k : κ) (p : α → Prop) [DecidablePred p] (f : α → α) :
    (∃ r, t.find? k = some r ∧ p r ∧ t.updateWhere k p f = (t.put (f r), true)) ∨
      ((∀ r ∈ t.find? k, ¬ p r) ∧ t.updateWhere k p f = (t, false)) := by
  unfold updateWhere
  cases hr : t.find? k with
  | none => exact Or.inr ⟨by simp, rfl⟩
  | some r =>
    by_cases hp : p r
    · exact Or.inl ⟨r, rfl, hp, if_pos hp⟩
    · exact Or.inr ⟨by simpa using hp, if_neg hp⟩

theorem deleteWhere_cases (t : Table key) (k : κ) (p : α → Prop) [DecidablePred p] :
    (∃ r, t.find? k = some r ∧ p r ∧ t.deleteWhere k p = (t.erase k, true)) ∨
      ((∀ r ∈ t.find? k, ¬ p r) ∧ t.deleteWhere k p = (t, false)) := by
  unfold deleteWhere
  cases hr : t.find? k with
  | none => exact Or.inr ⟨by simp, rfl⟩
  | some r =>
    by_cases hp : p r
    · exact Or.inl ⟨r, rfl, hp, if_pos hp⟩
    · exact Or.inr ⟨by simpa using hp, if_neg hp⟩

theorem find?_updateWhere_ne (t : Table key) {k l : κ} (hl : l ≠ k) (p : α → Prop)
    [DecidablePred p] {f : α → α} (hf : ∀ a, key (f a) = key a) :
    (t.updateWhere k p f).1.find? l = t.find? l := by
  rcases t.updateWhere_cases k p f with ⟨r, hfind, _, heq⟩ | ⟨_, heq⟩
  · rw [heq]
    refine find?_put_ne fun h => hl ?_
    rw [h, hf r, key_of_find? hfind]
  · rw [heq]

theorem find?_deleteWhere_ne (t : Table key) {k l : κ} (hl : l ≠ k) (p : α → Prop)
    [DecidablePred p] : (t.deleteWhere k p).1.find? l = t.find? l := by
  rcases t.deleteWhere_cases k p with ⟨_, _, _, heq⟩ | ⟨_, heq⟩
  · rw [heq, find?_erase, if_neg hl]
  · rw [heq]

/-- An overwrite changes one row in its place. -/
theorem rows_put {t : Table key} {a r : α} (h : t.find? (key a) = some r) :
    ∃ l₁ l₂, t.rows = l₁ ++ r :: l₂ ∧ (t.put a).rows = l₁ ++ a :: l₂ := by
  obtain ⟨hmem, hkey⟩ := find?_eq_some.mp h
  obtain ⟨l₁, l₂, hl⟩ := List.append_of_mem hmem
  have hnd := t.nodup
  rw [hl, List.map_append, List.map_cons, List.nodup_append, List.nodup_cons] at hnd
  obtain ⟨_, ⟨hn₂, _⟩, hdis⟩ := hnd
  have hsame : ∀ l : List α, (∀ x ∈ l, key x ≠ key r) →
      l.map (fun x => if key x = key a then a else x) = l := by
    intro l hne
    calc l.map (fun x => if key x = key a then a else x) = l.map id := by
          apply List.map_congr_left
          intro x hx
          have hxa : ¬ key x = key a := fun he => hne x hx (he.trans hkey.symm)
          simp [hxa]
      _ = l := List.map_id l
  have h₁ : ∀ x ∈ l₁, key x ≠ key r := fun x hx =>
    hdis (key x) (List.mem_map_of_mem hx) (key r) (List.mem_cons_self ..)
  have h₂ : ∀ x ∈ l₂, key x ≠ key r := fun x hx he =>
    hn₂ (he ▸ List.mem_map_of_mem hx)
  refine ⟨l₁, l₂, hl, ?_⟩
  show t.rows.map _ = _
  rw [hl, List.map_append, List.map_cons, hsame l₁ h₁, hsame l₂ h₂, if_pos hkey]

/-- A count of rows after an overwrite: the old row leaves, the new one
enters. -/
theorem countP_put (p : α → Bool) {t : Table key} {a r : α}
    (h : t.find? (key a) = some r) :
    (t.put a).rows.countP p + (if p r then 1 else 0)
      = t.rows.countP p + (if p a then 1 else 0) := by
  obtain ⟨l₁, l₂, hold, hnew⟩ := rows_put h
  rw [hold, hnew]
  simp only [List.countP_append, List.countP_cons]
  omega

theorem countP_insert? (p : α → Bool) {t t' : Table key} {a : α}
    (h : t.insert? a = some t') :
    t'.rows.countP p = t.rows.countP p + (if p a then 1 else 0) := by
  rw [(insert?_eq_some.mp h).2]
  simp [List.countP_append, List.countP_cons]

/-- A count of rows after a row is dropped. -/
theorem countP_erase (p : α → Bool) {t : Table key} {k : κ} {r : α} (h : t.find? k = some r) :
    (t.erase k).rows.countP p + (if p r then 1 else 0) = t.rows.countP p := by
  have hsplit := List.countP_eq_countP_filter_add t.rows p (fun a => decide (key a ≠ k))
  have hrow : t.rows.filter (fun a => !decide (key a ≠ k)) = [r] := by
    have hkey := t.filter_key k
    rw [h] at hkey
    simpa using hkey
  rw [hrow, List.countP_singleton] at hsplit
  exact hsplit.symm

theorem countP_erase_le (p : α → Bool) (t : Table key) (k : κ) :
    (t.erase k).rows.countP p ≤ t.rows.countP p :=
  List.filter_sublist.countP_le

end Table

end Keyed
