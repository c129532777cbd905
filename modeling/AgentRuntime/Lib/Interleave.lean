import AgentRuntime.Lib.Runs

/-!
# Interleaved calls

Concurrent calls over shared state. A call is whatever is left of it: it
enters with what it captures of the shared state, and from then on runs one
atomic statement at a time, in any order with the statements of the other
calls. `Program.step` is one event of such a world, after some time has
passed.

An `Outline` is a proof outline in the style of Owicki and Gries: an
assertion `I` about the shared state, one `J` about the shared state and a
single call, and the proof that a statement keeps `I`, establishes the next
`J` of its own call and does not disturb the `J` of any other. `Outline.run`
is the rule: both hold after every run — of those whose statements meet `P`,
where the outline needs one.

Where calls take items of the shared state into their hands, `Custody` is
the outline that keeps them apart, and two rules say who has them:
`Custody.covered_run`, every item stays in the hands of some call, and
`Custody.orphan_run`, an item in nobody's hands stays so.
-/

namespace Interleave

open Runs

variable {σ κ α : Type}

/-- How calls enter and what their statements do. -/
structure Program (σ κ α : Type) where
  wait : σ → Nat → σ
  call : σ → α → Option κ
  exec : σ → κ → σ × κ

/-- The shared state and the calls, in the order in which they entered. -/
structure World (σ κ : Type) where
  shared : σ
  calls : List κ := []

inductive Move (α : Type) where
  | call (a : α)
  | advance (i : Nat)

/-- A move and the time that passes before it. -/
structure Event (α : Type) where
  elapsed : Nat := 0
  move : Move α

/-- One event: a call enters, or the `i`-th call runs its next statement. -/
def Program.step (p : Program σ κ α) (w : World σ κ) (e : Event α) : World σ κ :=
  let s := p.wait w.shared e.elapsed
  match e.move with
  | .call a =>
    match p.call s a with
    | none => ⟨s, w.calls⟩
    | some c => ⟨s, w.calls ++ [c]⟩
  | .advance i =>
    match w.calls[i]? with
    | none => ⟨s, w.calls⟩
    | some c => ⟨(p.exec s c).1, w.calls.set i (p.exec s c).2⟩

theorem Program.step_advance (p : Program σ κ α) {w : World σ κ} {i : Nat} {c : κ} (t : Nat)
    (h : w.calls[i]? = some c) :
    p.step w ⟨t, .advance i⟩
      = ⟨(p.exec (p.wait w.shared t) c).1, w.calls.set i (p.exec (p.wait w.shared t) c).2⟩ := by
  unfold Program.step
  simp only [h]

/-- The statement that runs, if any, meets `P`. -/
def Program.Meets (p : Program σ κ α) (P : σ → κ → Prop) (w : World σ κ) (e : Event α) : Prop :=
  match e.move with
  | .call _ => True
  | .advance i => ∀ c ∈ w.calls[i]?, P (p.wait w.shared e.elapsed) c

instance (p : Program σ κ α) (P : σ → κ → Prop) [∀ s c, Decidable (P s c)] (w : World σ κ)
    (e : Event α) : Decidable (p.Meets P w e) :=
  match h : e.move with
  | .call _ => isTrue (by unfold Program.Meets; rw [h]; trivial)
  | .advance i =>
    decidable_of_iff (∀ c ∈ w.calls[i]?, P (p.wait w.shared e.elapsed) c)
      (by unfold Program.Meets; rw [h])

/-- A proof outline: `I` of the shared state, `J` of every call. -/
structure Outline (p : Program σ κ α) (P : σ → κ → Prop) (I : σ → Prop)
    (J : σ → κ → Prop) : Prop where
  wait : ∀ s t, I s → I (p.wait s t)
  waits : ∀ s t c, J s c → J (p.wait s t) c
  call : ∀ s a c, I s → p.call s a = some c → J s c
  exec : ∀ s c, I s → J s c → P s c → I (p.exec s c).1 ∧ J (p.exec s c).1 (p.exec s c).2
  spares : ∀ s c d, I s → J s c → P s c → J s d → J (p.exec s c).1 d

variable {p : Program σ κ α} {P : σ → κ → Prop} {I : σ → Prop} {J : σ → κ → Prop}

/-- The assertions of an outline, in a world. -/
def Asserted (I : σ → Prop) (J : σ → κ → Prop) (w : World σ κ) : Prop :=
  I w.shared ∧ ∀ c ∈ w.calls, J w.shared c

theorem Outline.step (o : Outline p P I J) (w : World σ κ) (e : Event α)
    (h : Asserted I J w) (hP : p.Meets P w e) : Asserted I J (p.step w e) := by
  obtain ⟨hI, hJ⟩ := h
  have hI' := o.wait w.shared e.elapsed hI
  have hJ' : ∀ c ∈ w.calls, J (p.wait w.shared e.elapsed) c :=
    fun c hc => o.waits _ _ c (hJ c hc)
  unfold Program.Meets at hP
  unfold Program.step
  cases hmove : e.move with
  | call a =>
    simp only
    split
    · exact ⟨hI', hJ'⟩
    next c hcall =>
      refine ⟨hI', fun d hd => ?_⟩
      rcases List.mem_append.mp hd with hold | hnew
      · exact hJ' d hold
      · rw [List.mem_singleton.mp hnew]
        exact o.call _ a c hI' hcall
  | advance i =>
    rw [hmove] at hP
    simp only at hP ⊢
    split
    · exact ⟨hI', hJ'⟩
    next c hcall =>
      have hmem : c ∈ w.calls := List.mem_of_getElem? hcall
      have hPc := hP c hcall
      obtain ⟨hI₁, hJ₁⟩ := o.exec _ c hI' (hJ' c hmem) hPc
      refine ⟨hI₁, fun d hd => ?_⟩
      rcases List.mem_or_eq_of_mem_set hd with hold | rfl
      · exact o.spares _ c d hI' (hJ' c hmem) hPc (hJ' d hold)
      · exact hJ₁

/-- **The rule of a proof outline**: its assertions hold after every run
whose statements meet `P`. -/
theorem Outline.run (o : Outline p P I J) (es : List (Event α)) (w : World σ κ)
    (h : Asserted I J w) (hP : Along p.step (p.Meets P) w es) :
    Asserted I J (Runs.run p.step w es) :=
  along_inv o.step es w h hP

/-- The condition that is always met. -/
theorem meets_trivial (w : World σ κ) (e : Event α) : p.Meets (fun _ _ => True) w e := by
  unfold Program.Meets
  split <;> simp

theorem meets_true (es : List (Event α)) (w : World σ κ) :
    Along p.step (p.Meets (fun _ _ => True)) w es :=
  Runs.along_of_inv (I := fun _ => True) (fun _ _ _ => trivial)
    (fun w e _ => meets_trivial w e) es w trivial


/-! ## Items in the hands of calls -/

variable {ι : Type} {H : κ → ι → Prop} {Fresh : σ → ι → Prop}

/-- A proof outline for calls that hold items, `H`: a call enters with none
and takes only fresh ones, so no two calls hold the same; and a statement
need not disturb the `J` only of a call that shares nothing with its own. -/
structure Custody (p : Program σ κ α) (P : σ → κ → Prop) (I : σ → Prop) (J : σ → κ → Prop)
    (H : κ → ι → Prop) (Fresh : σ → ι → Prop) : Prop where
  wait : ∀ s t, I s → I (p.wait s t)
  waits : ∀ s t c, J s c → J (p.wait s t) c
  call : ∀ s a c, I s → p.call s a = some c → J s c ∧ ∀ x, ¬ H c x
  exec : ∀ s c, I s → J s c → P s c → I (p.exec s c).1 ∧ J (p.exec s c).1 (p.exec s c).2
  held : ∀ s c x, J s c → H c x → ¬ Fresh s x
  takes : ∀ s c x, I s → J s c → P s c → H (p.exec s c).2 x → H c x ∨ Fresh s x
  spares : ∀ s c d, I s → J s c → P s c → J s d → (∀ x, H c x → ¬ H d x) →
    J (p.exec s c).1 d

/-- No two calls hold the same item. -/
def Apart (H : κ → ι → Prop) (calls : List κ) : Prop :=
  ∀ (i j : Nat) (c d : κ), i ≠ j → calls[i]? = some c → calls[j]? = some d →
    ∀ x, H c x → ¬ H d x

/-- What a proof outline with custody asserts of a world. -/
structure InCustody (I : σ → Prop) (J : σ → κ → Prop) (H : κ → ι → Prop) (w : World σ κ) :
    Prop where
  asserted : Asserted I J w
  apart : Apart H w.calls

theorem apart_set {calls : List κ} {i : Nat} {c' : κ} (h : Apart H calls)
    (hnew : ∀ (j : Nat) (d : κ), j ≠ i → calls[j]? = some d → ∀ x, H c' x → ¬ H d x) :
    Apart H (calls.set i c') := by
  intro j k d e hjk hd he x hx hxe
  rw [List.getElem?_set] at hd he
  split at hd
  next hij =>
    split at hd
    · cases hd
      rw [if_neg (by omega)] at he
      exact hnew k e (by omega) he x hx hxe
    · cases hd
  next hij =>
    split at he
    next hik =>
      split at he
      · cases he
        exact hnew j d (by omega) hd x hxe hx
      · cases he
    · exact h j k d e hjk hd he x hx hxe

theorem apart_append {calls : List κ} {c : κ} (h : Apart H calls) (hc : ∀ x, ¬ H c x) :
    Apart H (calls ++ [c]) := by
  have hold : ∀ (j : Nat) (d : κ), (calls ++ [c])[j]? = some d → calls[j]? = some d ∨ d = c := by
    intro j d hd
    rcases Nat.lt_or_ge j calls.length with hj | hj
    · rw [List.getElem?_append_left hj] at hd
      exact Or.inl hd
    · rw [List.getElem?_append_right hj] at hd
      exact Or.inr (List.mem_singleton.mp (List.mem_of_getElem? hd))
  intro j k d e hjk hd he x hx hxe
  rcases hold j d hd with hd' | rfl
  · rcases hold k e he with he' | rfl
    · exact h j k d e hjk hd' he' x hx hxe
    · exact hc x hxe
  · exact hc x hx

theorem Custody.step (o : Custody p P I J H Fresh) (w : World σ κ) (e : Event α)
    (h : InCustody I J H w) (hP : p.Meets P w e) : InCustody I J H (p.step w e) := by
  obtain ⟨⟨hI, hJ⟩, hapart⟩ := h
  have hI' := o.wait w.shared e.elapsed hI
  have hJ' : ∀ c ∈ w.calls, J (p.wait w.shared e.elapsed) c :=
    fun c hc => o.waits _ _ c (hJ c hc)
  unfold Program.Meets at hP
  unfold Program.step
  cases hmove : e.move with
  | call a =>
    simp only
    split
    · exact ⟨⟨hI', hJ'⟩, hapart⟩
    next c hcall =>
      obtain ⟨hc, hnone⟩ := o.call _ a c hI' hcall
      refine ⟨⟨hI', fun d hd => ?_⟩, apart_append hapart hnone⟩
      rcases List.mem_append.mp hd with hold | hnew
      · exact hJ' d hold
      · rw [List.mem_singleton.mp hnew]
        exact hc
  | advance i =>
    rw [hmove] at hP
    simp only at hP ⊢
    split
    · exact ⟨⟨hI', hJ'⟩, hapart⟩
    next c hcall =>
      have hJc := hJ' c (List.mem_of_getElem? hcall)
      have hPc := hP c hcall
      obtain ⟨hI₁, hJ₁⟩ := o.exec _ c hI' hJc hPc
      refine ⟨⟨hI₁, fun d hd => ?_⟩, apart_set hapart fun j d hj hd x hx => ?_⟩
      · obtain ⟨j, hj⟩ := List.mem_iff_getElem?.mp hd
        rw [List.getElem?_set] at hj
        split at hj
        · split at hj
          · cases hj
            exact hJ₁
          · cases hj
        next hij =>
          exact o.spares _ c d hI' hJc hPc (hJ' d (List.mem_of_getElem? hj))
            (hapart i j c d hij hcall hj)
      · rcases o.takes _ c x hI' hJc hPc hx with hold | hfresh
        · exact hapart i j c d (Ne.symm hj) hcall hd x hold
        · exact fun hdx => o.held _ d x (hJ' d (List.mem_of_getElem? hd)) hdx hfresh

theorem Custody.run (o : Custody p P I J H Fresh) (es : List (Event α)) (w : World σ κ)
    (h : InCustody I J H w) (hP : Along p.step (p.Meets P) w es) :
    InCustody I J H (Runs.run p.step w es) :=
  along_inv o.step es w h hP

/-- What more is asserted under an outline with custody. -/
theorem Custody.and {I' : σ → Prop} {J' : σ → κ → Prop} (o : Custody p P I J H Fresh)
    (hwait : ∀ s t, I' s → I' (p.wait s t))
    (hwaits : ∀ s t c, J' s c → J' (p.wait s t) c)
    (hcall : ∀ s a c, p.call s a = some c → J' s c)
    (hexec : ∀ s c, I s → J s c → P s c → I' s → J' s c →
      I' (p.exec s c).1 ∧ J' (p.exec s c).1 (p.exec s c).2)
    (hspares : ∀ s c d, J s c → J s d → J' s d → (∀ x, H c x → ¬ H d x) → J' (p.exec s c).1 d) :
    Custody p P (fun s => I s ∧ I' s) (fun s c => J s c ∧ J' s c) H Fresh where
  wait s t h := ⟨o.wait s t h.1, hwait s t h.2⟩
  waits s t c h := ⟨o.waits s t c h.1, hwaits s t c h.2⟩
  call s a c h hc := ⟨⟨(o.call s a c h.1 hc).1, hcall s a c hc⟩, (o.call s a c h.1 hc).2⟩
  exec s c hI hJ hP := by
    obtain ⟨hI₁, hJ₁⟩ := o.exec s c hI.1 hJ.1 hP
    obtain ⟨hI₂, hJ₂⟩ := hexec s c hI.1 hJ.1 hP hI.2 hJ.2
    exact ⟨⟨hI₁, hI₂⟩, hJ₁, hJ₂⟩
  held s c x hJ hx := o.held s c x hJ.1 hx
  takes s c x hI hJ hP hx := o.takes s c x hI.1 hJ.1 hP hx
  spares s c d hI hJ hP hd hapart :=
    ⟨o.spares s c d hI.1 hJ.1 hP hd.1 hapart, hspares s c d hJ.1 hd.1 hd.2 hapart⟩

/-- Every item of the shared state is in the hands of a call. -/
def Covered (R : σ → ι → Prop) (H : κ → ι → Prop) (w : World σ κ) : Prop :=
  ∀ x, R w.shared x → ∃ c ∈ w.calls, H c x

/-- An item of the shared state that no call has. -/
def Orphan (R : σ → ι → Prop) (H : κ → ι → Prop) (x : ι) (w : World σ κ) : Prop :=
  R w.shared x ∧ ∀ c ∈ w.calls, ¬ H c x

variable {R : σ → ι → Prop}

theorem Custody.covered_step {Q : σ → κ → Prop} (o : Custody p P I J H Fresh)
    (hwait : ∀ s t x, R (p.wait s t) x → R s x)
    (hexec : ∀ s c x, I s → J s c → Q s c → R (p.exec s c).1 x →
      H (p.exec s c).2 x ∨ (R s x ∧ ¬ H c x))
    (w : World σ κ) (e : Event α) (h : InCustody I J H w)
    (hQ : p.Meets Q w e) (hc : Covered R H w) : Covered R H (p.step w e) := by
  have hI := o.wait w.shared e.elapsed h.asserted.1
  unfold Program.Meets at hQ
  unfold Program.step
  cases hmove : e.move with
  | call a =>
    simp only
    intro x hx
    have hx' : R w.shared x := by
      split at hx <;> exact hwait _ _ x hx
    obtain ⟨c, hmem, hH⟩ := hc x hx'
    split
    · exact ⟨c, hmem, hH⟩
    · exact ⟨c, List.mem_append_left _ hmem, hH⟩
  | advance i =>
    rw [hmove] at hQ
    simp only at hQ ⊢
    split
    · intro x hx
      exact hc x (hwait _ _ x hx)
    next c hcall =>
      have hJ := o.waits _ e.elapsed c (h.asserted.2 c (List.mem_of_getElem? hcall))
      have hi : i < w.calls.length := (List.getElem?_eq_some_iff.mp hcall).1
      intro x hx
      rcases hexec _ c x hI hJ (hQ c hcall) hx with hnew | ⟨hold, hnot⟩
      · exact ⟨_, List.mem_set hi _, hnew⟩
      · obtain ⟨d, hmem, hH⟩ := hc x (hwait _ _ x hold)
        obtain ⟨j, hj⟩ := List.mem_iff_getElem?.mp hmem
        have hij : i ≠ j := by
          rintro rfl
          cases hcall.symm.trans hj
          exact hnot hH
        exact ⟨d, List.mem_iff_getElem?.mpr ⟨j, (List.getElem?_set_ne hij).trans hj⟩, hH⟩

/-- An item that enters the shared state with a call in charge, and leaves
it before the call lets go, is always in the hands of a call. -/
theorem Custody.covered_run {Q : σ → κ → Prop} (o : Custody p (fun _ _ => True) I J H Fresh)
    (hwait : ∀ s t x, R (p.wait s t) x → R s x)
    (hexec : ∀ s c x, I s → J s c → Q s c → R (p.exec s c).1 x →
      H (p.exec s c).2 x ∨ (R s x ∧ ¬ H c x))
    (es : List (Event α)) (w : World σ κ) (h : InCustody I J H w)
    (hQ : Along p.step (p.Meets Q) w es) (hc : Covered R H w) :
    Covered R H (Runs.run p.step w es) :=
  (along_inv (I := fun w => InCustody I J H w ∧ Covered R H w)
    (fun w e h hQ => ⟨o.step w e h.1 (meets_trivial w e), o.covered_step hwait hexec w e h.1 hQ h.2⟩)
    es w ⟨h, hc⟩ hQ).2

theorem Custody.orphan_step {x : ι} (o : Custody p (fun _ _ => True) I J H Fresh)
    (hwait : ∀ s t, R s x → R (p.wait s t) x)
    (hexec : ∀ s c, I s → J s c → R s x → ¬ H c x →
      R (p.exec s c).1 x ∧ ¬ H (p.exec s c).2 x)
    (w : World σ κ) (e : Event α) (h : InCustody I J H w)
    (hx : Orphan R H x w) : Orphan R H x (p.step w e) := by
  have hI := o.wait w.shared e.elapsed h.asserted.1
  have hR := hwait w.shared e.elapsed hx.1
  unfold Program.step
  cases e.move with
  | call a =>
    simp only
    split
    · exact ⟨hR, hx.2⟩
    next c hentered =>
      refine ⟨hR, fun d hd => ?_⟩
      rcases List.mem_append.mp hd with hold | hnew
      · exact hx.2 d hold
      · rw [List.mem_singleton.mp hnew]
        exact (o.call _ a c hI hentered).2 x
  | advance i =>
    simp only
    split
    · exact ⟨hR, hx.2⟩
    next c hc =>
      have hmem : c ∈ w.calls := List.mem_of_getElem? hc
      obtain ⟨hR', hnot⟩ := hexec _ c hI (o.waits _ _ c (h.asserted.2 c hmem)) hR (hx.2 c hmem)
      refine ⟨hR', fun d hd => ?_⟩
      rcases List.mem_or_eq_of_mem_set hd with hold | rfl
      · exact hx.2 d hold
      · exact hnot

/-- An item that no call has is never taken up again. -/
theorem Custody.orphan_run {x : ι} (o : Custody p (fun _ _ => True) I J H Fresh)
    (hwait : ∀ s t, R s x → R (p.wait s t) x)
    (hexec : ∀ s c, I s → J s c → R s x → ¬ H c x →
      R (p.exec s c).1 x ∧ ¬ H (p.exec s c).2 x)
    (es : List (Event α)) (w : World σ κ) (h : InCustody I J H w) (hx : Orphan R H x w) :
    Orphan R H x (Runs.run p.step w es) :=
  (run_inv (I := fun w => InCustody I J H w ∧ Orphan R H x w)
    (fun w e h => ⟨o.step w e h.1 (meets_trivial w e), o.orphan_step hwait hexec w e h.1 h.2⟩)
    es w ⟨h, hx⟩).2

end Interleave
