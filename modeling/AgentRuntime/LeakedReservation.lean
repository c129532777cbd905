import AgentRuntime.ModelGateway

/-!
# Reservations that are left behind

The budget of a run is freed again by settling a row, by expiring it, or by
cancelling its reservation. Expiry takes rows in flight only; a reserved row
is cancelled by its own attempt or not at all. So whether any are left
behind is a question of custody: every reserved row is in the hands of an
attempt that will take it out of that status, unless the attempt stops
between the commit of the reservation and the commit that follows it
(`Stops`, `Phase.window`). Nobody takes up what such an attempt leaves
(`stopped_call_keeps_slot`), and no other attempt leaves anything
(`no_reservation_left`).
-/

namespace AgentRuntime

open Keyed Runs Interleave

namespace Phase

/-- The row an attempt has. -/
def usage? : Phase → Option Nat
  | .reserved u | .attached u | .granted u | .activated u | .started u => some u
  | .settling u _ _ | .returned u _ _ => some u
  | .entered | .closed _ => none

/-- The row whose reservation is committed and nothing since. -/
def window : Phase → Option Nat
  | .reserved u | .attached u | .granted u | .activated u => some u
  | .settling u false _ | .returned u false _ => some u
  | _ => none

end Phase

namespace Attempt

/-- The next statement raises to the caller, or the caller rolls back. -/
def Raises (a : Attempt) : Prop :=
  match a.phase with
  | .reserved _ => ∃ ref, a.prompt = some ref ∧
      (a.fate.attached = .raises ∨ ref.1 = "" ∨ ref.2 = "")
  | .attached _ => a.fate.acquired = .raises
  | .granted _ => a.fate.activates = .raises
  | .returned .. => a.fate.commits = false
  | _ => False

instance (a : Attempt) : Decidable a.Raises := by
  unfold Raises
  split
  · exact match h : a.prompt with
      | none => isFalse fun ⟨_, href, _⟩ => by simp at href
      | some ref =>
        decidable_of_iff (a.fate.attached = .raises ∨ ref.1 = "" ∨ ref.2 = "") (by simp)
  all_goals infer_instance

/-- The attempt ends here and commits nothing any more: its process is gone,
or it raises. -/
def Stops (a : Attempt) : Prop :=
  a.lives = 0 ∨ a.Raises

instance (a : Attempt) : Decidable a.Stops := by
  unfold Stops; infer_instance

end Attempt

namespace Gateway

/-- The row `u` is reserved for a call of the run `q`. -/
def Reserved (q : String) (usages : UsageTable) (u : Nat) : Prop :=
  ∃ r, usages.find? u = some r ∧ r.status = .reserved ∧ r.runId = q

/-- The row `u`, if there is one, is no longer reserved. -/
def Unreserved (usages : UsageTable) (u : Nat) : Prop :=
  ∀ r, usages.find? u = some r → r.status ≠ .reserved

theorem Unreserved.not_reserved {q : String} {usages : UsageTable} {u : Nat}
    (h : Unreserved usages u) : ¬ Reserved q usages u :=
  fun ⟨r, hfind, hs, _⟩ => h r hfind hs

/-- Only prompt references are flushed. -/
def OnlyPrompts (flushed : List Flush) : Prop :=
  ∀ f ∈ flushed, ∃ promptId promptVersion, f = .prompt promptId promptVersion

/-- Only settlements of the row `u` are flushed. -/
def OnlySettles (u : Nat) (flushed : List Flush) : Prop :=
  ∀ f ∈ flushed, ∃ p, f = .settle p ∧ p.usageId = u

/-- The activation is flushed, and nothing after it but settlements of the
row. -/
def Activates (u : Nat) (flushed : List Flush) : Prop :=
  ∃ pre permitId post, flushed = pre ++ .activate permitId :: post ∧ OnlyPrompts pre ∧
    OnlySettles u post

/-! ## Flushed updates -/

/-- An update of the row `u` leaves every other row alone. -/
theorem applyFlush_other {u v : Nat} (hv : v ≠ u) (usages : UsageTable) (f : Flush)
    (hf : ∀ p, f = .settle p → p.usageId = u) :
    (applyFlush u usages f).find? v = usages.find? v := by
  cases f with
  | prompt promptId promptVersion => exact usages.find?_updateWhere_ne hv _ fun _ => rfl
  | activate permitId => exact usages.find?_updateWhere_ne hv _ fun _ => rfl
  | settle p =>
    have hp := hf p rfl
    subst hp
    exact usages.find?_updateWhere_ne hv _ fun _ => rfl

/-- A conditional update leaves the row unreserved if it does so where it
matches and the row was so where it does not. -/
theorem unreserved_update {usages : UsageTable} {u : Nat} {p : AgentModelUsage → Prop}
    [DecidablePred p] {f : AgentModelUsage → AgentModelUsage}
    (hf : ∀ r, (f r).usageId = r.usageId)
    (hnew : ∀ r, usages.find? u = some r → p r → (f r).status ≠ .reserved)
    (hold : ∀ r, usages.find? u = some r → ¬ p r → r.status ≠ .reserved) :
    Unreserved (usages.updateWhere u p f).1 u := by
  intro r' hr'
  rcases usages.updateWhere_cases u p f with ⟨r, hfind, hp, heq⟩ | ⟨hnot, heq⟩
  · have hkey : (f r).usageId = u := (hf r).trans (Table.key_of_find? hfind)
    rw [heq] at hr'
    rw [← hkey, Table.find?_put_self (hkey.symm ▸ hfind)] at hr'
    cases hr'
    exact hnew r hfind hp
  · rw [heq] at hr'
    exact hold r' hr' (hnot r' hr')

/-- No flushed update makes a row reserved. -/
theorem applyFlush_unreserved {u : Nat} {usages : UsageTable} {f : Flush}
    (hf : ∀ p, f = .settle p → p.usageId = u) (h : Unreserved usages u) :
    Unreserved (applyFlush u usages f) u := by
  cases f with
  | prompt promptId promptVersion =>
    exact unreserved_update (fun _ => rfl) (fun r hfind _ => h r hfind) (fun r hfind _ => h r hfind)
  | activate permitId =>
    exact unreserved_update (fun _ => rfl) (fun r _ _ => by simp [AgentModelUsage.activate])
      (fun r hfind _ => h r hfind)
  | settle p =>
    have hp := hf p rfl
    subst hp
    refine unreserved_update (fun _ => rfl) (fun r _ _ => ?_) (fun r hfind _ => h r hfind)
    cases hout : p.settlement.outcome <;> simp [AgentModelUsage.settle, hout, Outcome.status]

/-- The activation takes the row out of its reservation. -/
theorem applyFlush_activate {u : Nat} {usages : UsageTable} {permitId : String} :
    Unreserved (applyFlush u usages (.activate permitId)) u :=
  unreserved_update (fun _ => rfl) (fun r _ _ => by simp [AgentModelUsage.activate])
    (fun _ _ hnot => hnot)

theorem applyFlush_prompt {u : Nat} {usages : UsageTable} {q promptId promptVersion : String}
    (h : Reserved q usages u) :
    Reserved q (applyFlush u usages (.prompt promptId promptVersion)) u := by
  obtain ⟨r, hfind, hs, hrun⟩ := h
  rcases usages.updateWhere_cases u (fun r => r.status = .reserved)
    (fun r => r.attachPrompt promptId promptVersion) with ⟨r', hfind', _, heq⟩ | ⟨hnot, _⟩
  · cases hfind.symm.trans hfind'
    have hkey : (r.attachPrompt promptId promptVersion).usageId = u :=
      Table.key_of_find? (a := r) hfind
    refine ⟨r.attachPrompt promptId promptVersion, ?_, hs, hrun⟩
    show ((usages.updateWhere u _ _).1).find? u = some _
    rw [heq, ← hkey]
    exact Table.find?_put_self (hkey.symm ▸ hfind)
  · exact absurd hs (hnot r hfind)

theorem flushAll_other {u v : Nat} (hv : v ≠ u) :
    ∀ (flushed : List Flush) (usages : UsageTable),
      (∀ f ∈ flushed, ∀ p, f = .settle p → p.usageId = u) →
      (flushAll u usages flushed).find? v = usages.find? v
  | [], _, _ => rfl
  | f :: rest, _, hf => by
    show (flushAll u (applyFlush u _ f) rest).find? v = _
    rw [flushAll_other hv rest _ fun f' hf' => hf f' (List.mem_cons_of_mem _ hf'),
      applyFlush_other hv _ f (hf f List.mem_cons_self)]

theorem flushAll_unreserved {u : Nat} :
    ∀ (flushed : List Flush) (usages : UsageTable),
      (∀ f ∈ flushed, ∀ p, f = .settle p → p.usageId = u) → Unreserved usages u →
      Unreserved (flushAll u usages flushed) u
  | [], _, _, h => h
  | f :: rest, _, hf, h =>
    flushAll_unreserved rest _ (fun f' hf' => hf f' (List.mem_cons_of_mem _ hf'))
      (applyFlush_unreserved (hf f List.mem_cons_self) h)

theorem flushAll_prompts {u : Nat} {q : String} :
    ∀ (flushed : List Flush) (usages : UsageTable), OnlyPrompts flushed → Reserved q usages u →
      Reserved q (flushAll u usages flushed) u
  | [], _, _, h => h
  | f :: rest, _, hf, h => by
    obtain ⟨_, _, rfl⟩ := hf f List.mem_cons_self
    exact flushAll_prompts rest _ (fun f' hf' => hf f' (List.mem_cons_of_mem _ hf'))
      (applyFlush_prompt h)

theorem OnlyPrompts.own {u : Nat} {flushed : List Flush} (h : OnlyPrompts flushed) :
    ∀ f ∈ flushed, ∀ p, f = .settle p → p.usageId = u := by
  intro f hf p hp
  obtain ⟨_, _, rfl⟩ := h f hf
  cases hp

theorem OnlySettles.own {u : Nat} {flushed : List Flush} (h : OnlySettles u flushed) :
    ∀ f ∈ flushed, ∀ p, f = .settle p → p.usageId = u := by
  intro f hf p hp
  obtain ⟨p', rfl, hu⟩ := h f hf
  cases hp
  exact hu

theorem Activates.own {u : Nat} {flushed : List Flush} (h : Activates u flushed) :
    ∀ f ∈ flushed, ∀ p, f = .settle p → p.usageId = u := by
  obtain ⟨pre, permitId, post, rfl, hpre, hpost⟩ := h
  intro f hf p hp
  rcases List.mem_append.mp hf with hf | hf
  · exact hpre.own f hf p hp
  · rcases List.mem_cons.mp hf with rfl | hf
    · cases hp
    · exact hpost.own f hf p hp

/-- Committing the activation takes the row out of its reservation. -/
theorem flushAll_activates {u : Nat} {usages : UsageTable} {flushed : List Flush}
    (h : Activates u flushed) : Unreserved (flushAll u usages flushed) u := by
  obtain ⟨pre, permitId, post, rfl, _, hpost⟩ := h
  unfold flushAll
  rw [List.foldl_append, List.foldl_cons]
  exact flushAll_unreserved post _ hpost.own applyFlush_activate

/-! ## Attempts and their rows -/

/-- What an attempt knows of its row, and what it has flushed. -/
def Sound (g : Gateway) (a : Attempt) : Prop :=
  match a.phase with
  | .entered => a.flushed = []
  | .reserved u | .attached u | .granted u =>
    u < g.drawn ∧ Reserved a.ctx.runId g.usages u ∧ OnlyPrompts a.flushed
  | .activated u | .settling u false _ | .returned u false _ =>
    u < g.drawn ∧ Reserved a.ctx.runId g.usages u ∧ Activates u a.flushed
  | .started u | .settling u true _ | .returned u true _ =>
    u < g.drawn ∧ Unreserved g.usages u ∧ OnlySettles u a.flushed
  | .closed _ => True

/-- What one statement of an attempt does: it touches no row but its own,
takes none but the one it draws, and lets go of its row unreserved unless it
raises in the window. -/
structure Advances (g : Gateway) (a : Attempt) (g' : Gateway) (a' : Attempt) : Prop where
  drawn : g.drawn ≤ g'.drawn
  other : ∀ v, a.phase.usage? ≠ some v → a'.phase.usage? ≠ some v →
    g'.usages.find? v = g.usages.find? v
  takes : ∀ v, a'.phase.usage? = some v → a.phase.usage? = some v ∨
    (a.phase.usage? = none ∧ v = g.drawn ∧ v < g'.drawn)
  sound : Sound g' a'
  raises : a.phase.window ≠ none → a.Raises → a'.phase.usage? = none ∧ g' = g
  releases : ∀ u, a.phase.usage? = some u → a'.phase.usage? = none →
    ¬ (a.phase.window ≠ none ∧ a.Raises) → Unreserved g'.usages u

/-- The attempt goes on with its row, and nothing is committed. -/
theorem advances_on {g : Gateway} {a a' : Attempt} {u : Nat} (h : a.phase.usage? = some u)
    (h' : a'.phase.usage? = some u) (hs : Sound g a') (hraise : ¬ a.Raises) :
    Advances g a g a' where
  drawn := Nat.le_refl _
  other _ _ _ := rfl
  takes v hv := Or.inl (h.trans (h'.symm.trans hv))
  sound := hs
  raises _ hr := absurd hr hraise
  releases v _ hnone := by
    rw [h'] at hnone
    cases hnone

/-- The attempt raises, and nothing is committed. -/
theorem advances_raise {g : Gateway} {a : Attempt} (status : Option GatewayStatus)
    (hw : a.phase.window ≠ none) (hraise : a.Raises) :
    Advances g a g { a with phase := .closed status } where
  drawn := Nat.le_refl _
  other _ _ _ := rfl
  takes _ hv := by cases hv
  sound := trivial
  raises _ _ := ⟨rfl, rfl⟩
  releases _ _ _ hnot := absurd ⟨hw, hraise⟩ hnot

/-- The attempt is over, and its row is not reserved any more. -/
theorem advances_close {g : Gateway} {a : Attempt} {u : Nat} (status : Option GatewayStatus)
    {usages : UsageTable} (h : a.phase.usage? = some u)
    (hother : ∀ v, v ≠ u → usages.find? v = g.usages.find? v) (hrow : Unreserved usages u)
    (hraise : ¬ (a.phase.window ≠ none ∧ a.Raises)) :
    Advances g a { g with usages := usages } { a with phase := .closed status } where
  drawn := Nat.le_refl _
  other v hv _ := hother v fun he => hv (he ▸ h)
  takes _ hv := by cases hv
  sound := trivial
  raises hw hr := absurd ⟨hw, hr⟩ hraise
  releases v hv _ _ := by
    cases h.symm.trans hv
    exact hrow

/-- A reservation that was still its own is cancelled. -/
theorem cancel_advances {g : Gateway} {a : Attempt} {u : Nat} (status : Option GatewayStatus)
    (h : a.phase.usage? = some u) (hflushed : OnlyPrompts a.flushed) (hraise : ¬ a.Raises) :
    Advances g a (g.cancel u a.flushed) { a with phase := .closed status } := by
  refine advances_close status h (fun v hv => ?_) ?_ (fun hboth => hraise hboth.2)
  · exact ((flushAll u g.usages a.flushed).find?_deleteWhere_ne hv _).trans
      (flushAll_other hv _ _ hflushed.own)
  · unfold ModelUsageService.cancelReservation
    intro r hr
    rcases (flushAll u g.usages a.flushed).deleteWhere_cases u (fun r => r.status = .reserved) with
      ⟨_, _, _, heq⟩ | ⟨hnot, heq⟩
    · rw [heq, Table.find?_erase, if_pos rfl] at hr
      cases hr
    · rw [heq] at hr
      exact hnot r hr

theorem attach_advances {g : Gateway} {a : Attempt} {u : Nat} (hphase : a.phase = .reserved u)
    (hs : Sound g a) : Advances g a (g.attach a u).1 (g.attach a u).2 := by
  simp only [Sound, hphase] at hs
  obtain ⟨hu, hrow, hflushed⟩ := hs
  have hhas : a.phase.usage? = some u := by rw [hphase]; rfl
  have hwindow : a.phase.window ≠ none := by rw [hphase]; simp [Phase.window]
  unfold attach
  split
  next hnone =>
    exact advances_on hhas rfl ⟨hu, hrow, hflushed⟩ (by simp [Attempt.Raises, hphase, hnone])
  next promptId promptVersion hprompt =>
    split
    next hraise =>
      exact advances_raise none hwindow (by simp [Attempt.Raises, hphase, hprompt, hraise])
    next hquiet =>
      split
      next e herr =>
        refine advances_raise none hwindow ?_
        have hids : ¬ (promptId ≠ "" ∧ promptVersion ≠ "") := fun hids => by
          unfold ModelUsageService.attachPromptRef at herr
          rw [show require (promptId ≠ "" ∧ promptVersion ≠ "") _ = .ok () from
            require_ok.mpr hids] at herr
          cases herr
        simp only [Attempt.Raises, hphase]
        refine ⟨_, hprompt, Or.inr ?_⟩
        by_cases hid : promptId = ""
        · exact Or.inl hid
        · exact Or.inr (by_contra fun hv => hids ⟨hid, hv⟩)
      next usages matched hok =>
        have hids : promptId ≠ "" ∧ promptVersion ≠ "" := by
          obtain ⟨_, hids, _⟩ := bind_ok.mp hok
          exact require_ok.mp hids
        have hraise : ¬ a.Raises := by
          simp [Attempt.Raises, hphase, hprompt, hquiet, hids]
        split
        · refine advances_on hhas rfl ⟨hu, hrow, fun f hf => ?_⟩ hraise
          rcases List.mem_append.mp hf with hold | hnew
          · exact hflushed f hold
          · exact ⟨_, _, List.mem_singleton.mp hnew⟩
        · exact cancel_advances _ hhas hflushed hraise

theorem acquire_advances {g : Gateway} {a : Attempt} {u : Nat} (hphase : a.phase = .attached u)
    (hs : Sound g a) : Advances g a (g.acquire a u).1 (g.acquire a u).2 := by
  simp only [Sound, hphase] at hs
  have hhas : a.phase.usage? = some u := by rw [hphase]; rfl
  unfold acquire
  split
  next h => exact advances_on hhas rfl hs (by simp [Attempt.Raises, hphase, h])
  next h => exact cancel_advances _ hhas hs.2.2 (by simp [Attempt.Raises, hphase, h])
  next h =>
    exact advances_raise none (by rw [hphase]; simp [Phase.window])
      (by simp [Attempt.Raises, hphase, h])

theorem activate_advances {g : Gateway} {a : Attempt} {u : Nat} (hphase : a.phase = .granted u)
    (hs : Sound g a) : Advances g a (g.activate a u).1 (g.activate a u).2 := by
  simp only [Sound, hphase] at hs
  obtain ⟨hu, hrow, hflushed⟩ := hs
  have hhas : a.phase.usage? = some u := by rw [hphase]; rfl
  unfold activate
  split
  next h =>
    exact advances_raise none (by rw [hphase]; simp [Phase.window])
      (by simp [Attempt.Raises, hphase, h])
  next h =>
    have hraise : ¬ a.Raises := by simp [Attempt.Raises, hphase, h]
    split
    · refine advances_on hhas rfl ⟨hu, hrow, a.flushed, a.permitId, [], rfl, hflushed, ?_⟩ hraise
      simp [OnlySettles]
    next hnot =>
      -- the row is still reserved, so the activation has matched
      obtain ⟨r, hfind, hstatus, _⟩ := hrow
      refine absurd ?_ hnot
      unfold ModelUsageService.activateReservation
      rcases g.usages.updateWhere_cases u (fun r => r.status = .reserved)
        (fun r => r.activate a.permitId) with ⟨_, _, _, heq⟩ | ⟨hno, _⟩
      · rw [heq]
      · exact absurd hstatus (hno r hfind)

theorem start_advances {g : Gateway} {a : Attempt} {u : Nat} (hphase : a.phase = .activated u)
    (hs : Sound g a) : Advances g a (g.start a u).1 (g.start a u).2 := by
  simp only [Sound, hphase] at hs
  obtain ⟨hu, hrow, hflushed⟩ := hs
  have hhas : a.phase.usage? = some u := by rw [hphase]; rfl
  have hraise : ¬ a.Raises := by simp [Attempt.Raises, hphase]
  have hrow' : Unreserved (ModelUsageService.markStarted (flushAll u g.usages a.flushed) u).1 u := by
    have h : Unreserved (flushAll u g.usages a.flushed) u := flushAll_activates hflushed
    exact unreserved_update (fun _ => rfl) (fun r _ _ => by simp [AgentModelUsage.start])
      (fun r hfind _ => h r hfind)
  have hother : ∀ v, v ≠ u →
      (ModelUsageService.markStarted (flushAll u g.usages a.flushed) u).1.find? v
        = g.usages.find? v := by
    intro v hv
    rw [← flushAll_other hv a.flushed g.usages hflushed.own]
    exact Table.find?_updateWhere_ne _ hv _ fun _ => rfl
  have hcommit : ∀ a' : Attempt, a'.phase.usage? = some u →
      Sound { g with usages := (ModelUsageService.markStarted (flushAll u g.usages a.flushed) u).1 }
        a' →
      Advances g a
        { g with usages := (ModelUsageService.markStarted (flushAll u g.usages a.flushed) u).1 }
        a' := by
    intro a' h' hsound
    exact {
      drawn := Nat.le_refl _
      other := fun v hv _ => hother v fun he => hv (he ▸ hhas)
      takes := fun v hv => Or.inl (hhas.trans (h'.symm.trans hv))
      sound := hsound
      raises := fun _ hr => absurd hr hraise
      releases := fun v _ hnone => by
        rw [h'] at hnone
        cases hnone }
  unfold start
  split
  · rcases hm : ModelUsageService.markStarted (flushAll u g.usages a.flushed) u with ⟨usages, ok⟩
    rw [hm] at hcommit hrow'
    cases ok
    · exact hcommit _ rfl ⟨hu, hrow', by simp [OnlySettles]⟩
    · exact hcommit _ rfl ⟨hu, hrow', by simp [OnlySettles]⟩
  · exact advances_on hhas rfl ⟨hu, hrow, hflushed⟩ hraise
  · exact advances_on hhas rfl ⟨hu, hrow, hflushed⟩ hraise

theorem settle_advances {g : Gateway} {a : Attempt} {u : Nat} {sent : Bool}
    {reply : ProviderReply} (hphase : a.phase = .settling u sent reply) (hs : Sound g a) :
    Advances g a (g.settle a u sent reply).1 (g.settle a u sent reply).2 := by
  have hhas : a.phase.usage? = some u := by rw [hphase]; rfl
  have hraise : ¬ a.Raises := by simp [Attempt.Raises, hphase]
  unfold settle
  simp only
  split
  next p hsettles hread =>
    have hp : p.usageId = u := ModelUsageService.settleRead_ok hread
    refine advances_on hhas rfl ?_ hraise
    cases sent with
    | false =>
      simp only [Sound, hphase] at hs ⊢
      obtain ⟨hu, hrow, pre, permitId, post, heq, hpre, hpost⟩ := hs
      refine ⟨hu, hrow, pre, permitId, post ++ [.settle p], by simp [heq], hpre, fun f hf => ?_⟩
      rcases List.mem_append.mp hf with hold | hnew
      · exact hpost f hold
      · exact ⟨p, List.mem_singleton.mp hnew, hp⟩
    | true =>
      simp only [Sound, hphase] at hs ⊢
      obtain ⟨hu, hrow, hflushed⟩ := hs
      refine ⟨hu, hrow, fun f hf => ?_⟩
      rcases List.mem_append.mp hf with hold | hnew
      · exact hflushed f hold
      · exact ⟨p, List.mem_singleton.mp hnew, hp⟩
  · refine advances_on hhas rfl ?_ hraise
    cases sent <;> simpa only [Sound, hphase] using hs

/-- The caller's commit, or its rollback. -/
theorem return_advances {g : Gateway} {a : Attempt} {u : Nat} {sent : Bool}
    {status : Option GatewayStatus} (hphase : a.phase = .returned u sent status) (hs : Sound g a) :
    Advances g a (g.advance a).1 (g.advance a).2 := by
  have hhas : a.phase.usage? = some u := by rw [hphase]; rfl
  unfold advance
  rw [hphase]
  simp only
  split
  next hcommit =>
    have hraise : ¬ (a.phase.window ≠ none ∧ a.Raises) := by
      simp [Attempt.Raises, hphase, hcommit]
    cases sent with
    | false =>
      simp only [Sound, hphase] at hs
      exact advances_close status hhas (fun v hv => flushAll_other hv _ _ hs.2.2.own)
        (flushAll_activates hs.2.2) hraise
    | true =>
      simp only [Sound, hphase] at hs
      exact advances_close status hhas (fun v hv => flushAll_other hv _ _ hs.2.2.own)
        (flushAll_unreserved _ _ hs.2.2.own hs.2.1) hraise
  next hrollback =>
    cases sent with
    | false =>
      exact advances_raise status (by rw [hphase]; simp [Phase.window])
        (by simpa [Attempt.Raises, hphase] using hrollback)
    | true =>
      simp only [Sound, hphase] at hs
      exact advances_close status hhas (fun _ _ => rfl) hs.2.1 (by simp [hphase, Phase.window])

theorem enter_advances {g : Gateway} {a : Attempt} (hphase : a.phase = .entered)
    (hs : Sound g a) : Advances g a (g.advance a).1 (g.advance a).2 := by
  simp only [Sound, hphase] at hs
  have hclose : ∀ status, Advances g a g { a with phase := .closed status } := fun status => {
    drawn := Nat.le_refl _
    other := fun _ _ _ => rfl
    takes := fun _ hv => by cases hv
    sound := trivial
    raises := fun hw => absurd (by rw [hphase]; rfl) hw
    releases := fun v hv => by
      rw [hphase] at hv
      cases hv }
  unfold advance
  rw [hphase]
  simp only
  split
  · exact hclose _
  · split
    · exact hclose _
    next g' hreserve =>
      obtain ⟨usages, db, hins, rfl⟩ := reserve_ok hreserve
      have hrow := Table.find?_insert? hins
      exact {
        drawn := Nat.le_succ _
        other := fun v _ hv => by
          refine (hrow v).trans (if_neg fun he => hv ?_)
          rw [he]
          rfl
        takes := fun v hv => by
          cases hv
          exact Or.inr ⟨by rw [hphase]; rfl, rfl, Nat.lt_succ_self _⟩
        sound := by
          refine ⟨Nat.lt_succ_self _, ⟨_, (hrow _).trans (if_pos rfl), rfl, rfl⟩, ?_⟩
          simp [hs, OnlyPrompts]
        raises := fun hw => absurd (by rw [hphase]; rfl) hw
        releases := fun v hv => by
          rw [hphase] at hv
          cases hv }

/-- **One statement of an attempt.** -/
theorem advance_advances {g : Gateway} {a : Attempt} (hs : Sound g a) :
    Advances g a (g.advance a).1 (g.advance a).2 := by
  cases hphase : a.phase with
  | entered => exact enter_advances hphase hs
  | reserved u =>
    have h := attach_advances hphase hs
    unfold advance
    rwa [hphase]
  | attached u =>
    have h := acquire_advances hphase hs
    unfold advance
    rwa [hphase]
  | granted u =>
    have h := activate_advances hphase hs
    unfold advance
    rwa [hphase]
  | activated u =>
    have h := start_advances hphase hs
    unfold advance
    rwa [hphase]
  | started u =>
    unfold advance
    rw [hphase]
    simp only [Sound, hphase] at hs
    exact advances_on (by rw [hphase]; rfl) rfl hs (by simp [Attempt.Raises, hphase])
  | settling u sent reply =>
    have h := settle_advances hphase hs
    unfold advance
    rwa [hphase]
  | returned u sent status => exact return_advances hphase hs
  | closed status =>
    unfold advance
    rw [hphase]
    exact {
      drawn := Nat.le_refl _
      other := fun _ _ _ => rfl
      takes := fun v hv => Or.inl hv
      sound := hs
      raises := fun hw => absurd (by rw [hphase]; rfl) hw
      releases := fun v hv => by
        rw [hphase] at hv
        cases hv }

/-- A statement of an attempt, or the end of its process. -/
theorem exec_cases (g : Gateway) {a : Attempt} (hs : Sound g a) :
    (a.lives = 0 ∧ g.exec a = (g, { a with phase := .closed none })) ∨
      (a.lives ≠ 0 ∧ Advances g a (g.exec a).1 (g.exec a).2) := by
  unfold exec
  split
  next h => exact Or.inl ⟨h, rfl⟩
  next h =>
    have hadv := advance_advances (g := g) (a := { a with lives := a.lives - 1 }) hs
    exact Or.inr ⟨h, hadv.drawn, hadv.other, hadv.takes, hadv.sound, hadv.raises, hadv.releases⟩

/-! ## Custody of the rows -/

/-- The row a call has. -/
def Has (c : Running) (u : Nat) : Prop :=
  match c with
  | .attempt a => a.phase.usage? = some u
  | _ => False

def SoundRunning (g : Gateway) (c : Running) : Prop :=
  match c with
  | .attempt a => Sound g a
  | _ => True

/-- No row has an identifier that is not drawn. -/
def Drawn (g : Gateway) : Prop :=
  ∀ v, g.drawn ≤ v → g.usages.find? v = none

theorem reserved_expire {q : String} {usages : UsageTable} (current : Time) {u : Nat} :
    Reserved q (ModelUsageService.markExpiredRunningUnknown usages current) u ↔
      Reserved q usages u := by
  unfold Reserved ModelUsageService.markExpiredRunningUnknown
  rw [Table.find?_mapRows]
  cases usages.find? u with
  | none => simp
  | some r =>
    by_cases hexp : r.Expired current
    · have hne : r.status ≠ .reserved := fun h => by
        have := hexp.1
        rw [h] at this
        cases this
      simp [AgentModelUsage.expire, hexp, hne]
    · simp [AgentModelUsage.expire, hexp]

theorem unreserved_expire {usages : UsageTable} {current : Time} {u : Nat}
    (h : Unreserved usages u) :
    Unreserved (ModelUsageService.markExpiredRunningUnknown usages current) u := by
  intro r' hr'
  unfold ModelUsageService.markExpiredRunningUnknown at hr'
  rw [Table.find?_mapRows] at hr'
  obtain ⟨r, hfind, rfl⟩ := Option.map_eq_some_iff.mp hr'
  unfold AgentModelUsage.expire
  split
  · simp
  · exact h r hfind

/-- An attempt's knowledge outlives what others do to other rows. -/
theorem Sound.spared {g g' : Gateway} {a : Attempt} (hs : Sound g a) (hd : g.drawn ≤ g'.drawn)
    (hres : ∀ u, a.phase.usage? = some u → Reserved a.ctx.runId g.usages u →
      Reserved a.ctx.runId g'.usages u)
    (hun : ∀ u, a.phase.usage? = some u → Unreserved g.usages u → Unreserved g'.usages u) :
    Sound g' a := by
  have hkeep : ∀ u {P : Prop}, a.phase.usage? = some u →
      u < g.drawn ∧ Reserved a.ctx.runId g.usages u ∧ P →
      u < g'.drawn ∧ Reserved a.ctx.runId g'.usages u ∧ P := fun u _ h ⟨hu, hr, hp⟩ =>
    ⟨hu.trans_le hd, hres u h hr, hp⟩
  have hkeep' : ∀ u {P : Prop}, a.phase.usage? = some u →
      u < g.drawn ∧ Unreserved g.usages u ∧ P →
      u < g'.drawn ∧ Unreserved g'.usages u ∧ P := fun u _ h ⟨hu, hr, hp⟩ =>
    ⟨hu.trans_le hd, hun u h hr, hp⟩
  unfold Sound at hs ⊢
  cases hphase : a.phase with
  | entered => simpa only [hphase] using hs
  | reserved u | attached u | granted u | activated u =>
    simp only [hphase] at hs ⊢
    exact hkeep u (by rw [hphase]; rfl) hs
  | started u =>
    simp only [hphase] at hs ⊢
    exact hkeep' u (by rw [hphase]; rfl) hs
  | settling u sent reply | returned u sent status =>
    cases sent with
    | false =>
      simp only [hphase] at hs ⊢
      exact hkeep u (by rw [hphase]; rfl) hs
    | true =>
      simp only [hphase] at hs ⊢
      exact hkeep' u (by rw [hphase]; rfl) hs
  | closed status => trivial

theorem Sound.lt {g : Gateway} {a : Attempt} {u : Nat} (hs : Sound g a)
    (hu : a.phase.usage? = some u) : u < g.drawn := by
  unfold Sound at hs
  cases hphase : a.phase with
  | entered | closed => simp [hphase, Phase.usage?] at hu
  | reserved v | attached v | granted v | activated v | started v =>
    simp only [hphase, Phase.usage?] at hs hu
    cases hu
    exact hs.1
  | settling v sent reply | returned v sent status =>
    simp only [hphase, Phase.usage?] at hu
    cases hu
    cases sent <;> simp only [hphase] at hs <;> exact hs.1

theorem usage?_of_window {phase : Phase} {u : Nat} (h : phase.window = some u) :
    phase.usage? = some u := by
  cases phase with
  | settling v sent reply | returned v sent status =>
    cases sent with
    | false => exact h
    | true => cases h
  | entered | started | closed => cases h
  | _ => exact h

/-- In the window the row is reserved for the run of the call. -/
theorem Sound.reserved {g : Gateway} {a : Attempt} {u : Nat} (hs : Sound g a)
    (hu : a.phase.window = some u) : Reserved a.ctx.runId g.usages u := by
  unfold Sound at hs
  cases hphase : a.phase with
  | entered | closed | started => simp [hphase, Phase.window] at hu
  | reserved v | attached v | granted v | activated v =>
    simp only [hphase, Phase.window] at hs hu
    cases hu
    exact hs.2.1
  | settling v sent reply | returned v sent status =>
    cases sent with
    | false =>
      simp only [hphase, Phase.window] at hs hu
      cases hu
      exact hs.2.1
    | true => simp [hphase, Phase.window] at hu

/-- Outside it, it is not reserved at all. -/
theorem Sound.unreserved {g : Gateway} {a : Attempt} {u : Nat} (hs : Sound g a)
    (hu : a.phase.usage? = some u) (hw : a.phase.window ≠ some u) : Unreserved g.usages u := by
  unfold Sound at hs
  cases hphase : a.phase with
  | entered | closed => simp [hphase, Phase.usage?] at hu
  | reserved v | attached v | granted v | activated v =>
    rw [hphase] at hu hw
    exact absurd hu hw
  | started v =>
    simp only [hphase, Phase.usage?] at hs hu
    cases hu
    exact hs.2.1
  | settling v sent reply | returned v sent status =>
    rw [hphase] at hu hw
    cases sent with
    | false => exact absurd hu hw
    | true =>
      simp only [hphase] at hs
      cases hu
      exact hs.2.1

theorem Reserved.run_eq {q q' : String} {usages : UsageTable} {u : Nat}
    (h : Reserved q usages u) (h' : Reserved q' usages u) : q = q' := by
  obtain ⟨r, hfind, _, rfl⟩ := h
  obtain ⟨r', hfind', _, rfl⟩ := h'
  cases hfind.symm.trans hfind'
  rfl

theorem Reserved.of_find {q : String} {usages usages' : UsageTable} {u : Nat}
    (h : usages'.find? u = usages.find? u) (hr : Reserved q usages u) : Reserved q usages' u := by
  obtain ⟨r, hfind, hrest⟩ := hr
  exact ⟨r, h.trans hfind, hrest⟩

/-- Attempts keep to their own rows. -/
theorem attempts_custody (limits : AdmissionLimits) :
    Custody (program limits) (fun _ _ => True) Drawn SoundRunning Has
      (fun g u => g.drawn ≤ u) where
  wait g t h := h
  waits g t c h := by
    cases c <;> exact h
  call g op c _ hcall := by
    cases op <;> cases hcall
    · exact ⟨rfl, fun u hu => by cases hu⟩
    · exact ⟨trivial, fun _ hu => hu⟩
    · exact ⟨trivial, fun _ hu => hu⟩
  exec g c hI hJ _ := by
    cases c with
    | attempt a =>
      show Drawn (g.exec a).1 ∧ Sound (g.exec a).1 (g.exec a).2
      rcases exec_cases g hJ with ⟨_, heq⟩ | ⟨_, hadv⟩
      · rw [heq]
        exact ⟨hI, trivial⟩
      · refine ⟨fun v hv => ?_, hadv.sound⟩
        have hold : a.phase.usage? ≠ some v := fun h =>
          absurd (Sound.lt hJ h) (Nat.not_lt.mpr (hadv.drawn.trans hv))
        refine (hadv.other v hold fun h => ?_).trans (hI v (hadv.drawn.trans hv))
        rcases hadv.takes v h with h' | ⟨_, _, h'⟩
        · exact hold h'
        · omega
    | markExpired current =>
      refine ⟨fun v hv => ?_, trivial⟩
      show (ModelUsageService.markExpiredRunningUnknown g.usages current).find? v = none
      unfold ModelUsageService.markExpiredRunningUnknown
      rw [Table.find?_mapRows, hI v hv]
      rfl
    | lifecycle op => exact ⟨hI, trivial⟩
    | done => exact ⟨hI, trivial⟩
  held g c u hJ hu := by
    cases c with
    | attempt a => exact Nat.not_le.mpr (Sound.lt hJ hu)
    | _ => exact absurd hu id
  takes g c u _ hJ _ hu := by
    cases c with
    | attempt a =>
      rcases exec_cases g hJ with ⟨_, heq⟩ | ⟨_, hadv⟩
      · have hu' : (g.exec a).2.phase.usage? = some u := hu
        rw [heq] at hu'
        cases hu'
      · rcases hadv.takes u hu with h | ⟨_, h, _⟩
        · exact Or.inl h
        · exact Or.inr (Nat.le_of_eq h.symm)
    | _ => exact absurd hu id
  spares g c d _ hJ _ hd hdisjoint := by
    cases d with
    | attempt b =>
      cases c with
      | attempt a =>
        show Sound (g.exec a).1 b
        rcases exec_cases g hJ with ⟨_, heq⟩ | ⟨_, hadv⟩
        · rw [heq]
          exact hd
        · have hfind : ∀ u, b.phase.usage? = some u →
              (g.exec a).1.usages.find? u = g.usages.find? u := by
            intro u hu
            have hold : a.phase.usage? ≠ some u := fun h => hdisjoint u h hu
            refine hadv.other u hold fun h => ?_
            rcases hadv.takes u h with h' | ⟨_, h', _⟩
            · exact hold h'
            · have := Sound.lt hd hu
              omega
          refine Sound.spared hd hadv.drawn (fun u hu => .of_find (hfind u hu)) fun u hu h r hr => ?_
          exact h r ((hfind u hu).symm.trans hr)
      | markExpired current =>
        exact Sound.spared hd (Nat.le_refl _) (fun _ _ => (reserved_expire _).mpr)
          (fun _ _ => unreserved_expire)
      | lifecycle op => exact hd
      | done => exact hd
    | _ => trivial

/-- The statement does not stop an attempt of the run `q` between the commit
of its reservation and the next. -/
def Survives (q : String) (_ : Gateway) (c : Running) : Prop :=
  match c with
  | .attempt a => a.ctx.runId = q → a.phase.window ≠ none → ¬ a.Stops
  | _ => True

instance (q : String) (g : Gateway) (c : Running) : Decidable (Survives q g c) := by
  unfold Survives; split <;> infer_instance

/-- Attempts that survive the window take every reservation out of its
status themselves. -/
theorem covered_exec {limits : AdmissionLimits} {q : String} {g : Gateway} {c : Running} {u : Nat}
    (hJ : SoundRunning g c) (hQ : Survives q g c)
    (hu : Reserved q ((program limits).exec g c).1.usages u) :
    Has ((program limits).exec g c).2 u ∨ (Reserved q g.usages u ∧ ¬ Has c u) := by
  cases c with
  | attempt a =>
    -- a row of `q` that the attempt has is in its window, so it does not stop
    have hlives : a.phase.usage? = some u → Reserved q g.usages u → ¬ a.Stops := by
      intro hhas hres
      by_cases hwindow : a.phase.window = some u
      · exact hQ ((Sound.reserved hJ hwindow).run_eq hres) (by rw [hwindow]; simp)
      · exact absurd hres (Sound.unreserved hJ hhas hwindow).not_reserved
    have hu' : Reserved q (g.exec a).1.usages u := hu
    show (g.exec a).2.phase.usage? = some u ∨ _
    rcases exec_cases g hJ with ⟨hdead, heq⟩ | ⟨_, hadv⟩
    · rw [heq] at hu'
      exact Or.inr ⟨hu', fun hhas => hlives hhas hu' (Or.inl hdead)⟩
    · by_cases hnew : (g.exec a).2.phase.usage? = some u
      · exact Or.inl hnew
      · by_cases hhas : a.phase.usage? = some u
        · have hclosed : (g.exec a).2.phase.usage? = none := by
            cases hphase : (g.exec a).2.phase.usage? with
            | none => rfl
            | some v =>
              rcases hadv.takes v hphase with h | ⟨h, _⟩
              · cases hhas.symm.trans h
                exact absurd hphase hnew
              · cases hhas.symm.trans h
          by_cases hraise : a.phase.window ≠ none ∧ a.Raises
          · rw [(hadv.raises hraise.1 hraise.2).2] at hu'
            exact absurd (Or.inr hraise.2) (hlives hhas hu')
          · exact absurd hu' (hadv.releases u hhas hclosed hraise).not_reserved
        · exact Or.inr ⟨hu'.of_find (hadv.other u hhas hnew).symm, hhas⟩
  | markExpired current => exact Or.inr ⟨(reserved_expire current).mp hu, id⟩
  | lifecycle op => exact Or.inr ⟨hu, id⟩
  | done => exact Or.inr ⟨hu, id⟩

/-- Nobody touches a reservation that no attempt has. -/
theorem orphan_exec {limits : AdmissionLimits} {q : String} {g : Gateway} {c : Running} {u : Nat}
    (hI : Drawn g) (hJ : SoundRunning g c) (hu : Reserved q g.usages u) (hnot : ¬ Has c u) :
    Reserved q ((program limits).exec g c).1.usages u ∧ ¬ Has ((program limits).exec g c).2 u := by
  cases c with
  | attempt a =>
    show Reserved q (g.exec a).1.usages u ∧ ¬ (g.exec a).2.phase.usage? = some u
    rcases exec_cases g hJ with ⟨_, heq⟩ | ⟨_, hadv⟩
    · rw [heq]
      exact ⟨hu, fun h => by cases h⟩
    · have hnew : ¬ (g.exec a).2.phase.usage? = some u := by
        intro h
        rcases hadv.takes u h with h' | ⟨_, rfl, _⟩
        · exact hnot h'
        · obtain ⟨r, hfind, _⟩ := hu
          rw [hI _ (Nat.le_refl _)] at hfind
          cases hfind
      exact ⟨hu.of_find (hadv.other u hnot hnew), hnew⟩
  | markExpired current => exact ⟨(reserved_expire current).mpr hu, id⟩
  | lifecycle op => exact ⟨hu, id⟩
  | done => exact ⟨hu, id⟩

/-! ## Every run -/

/-- A ledger without rows, at any state of the runs. -/
def fresh (sys : Sys) : World Gateway Running := ⟨{ sys := sys }, []⟩

theorem inCustody_fresh (sys : Sys) : InCustody Drawn SoundRunning Has (fresh sys) := by
  refine ⟨⟨fun _ _ => rfl, by simp [fresh]⟩, ?_⟩
  intro i j c d _ hc
  simp [fresh] at hc

/-- An attempt that stops in the window leaves its row to nobody. -/
theorem orphan_of_stops (limits : AdmissionLimits) {q : String} {w : World Gateway Running}
    {e : Interleave.Event GatewayOp} {i : Nat} {a : Attempt}
    (h : InCustody Drawn SoundRunning Has w) (hmove : e.move = .advance i)
    (hcall : w.calls[i]? = some (.attempt a)) (hq : a.ctx.runId = q)
    (hwindow : a.phase.window ≠ none) (hstops : a.Stops) :
    ∃ u, Orphan (fun g u => Reserved q g.usages u) Has u ((program limits).step w e) := by
  obtain ⟨u, hu⟩ := Option.ne_none_iff_exists'.mp hwindow
  have hhas := usage?_of_window hu
  have hsound : Sound ((program limits).wait w.shared e.elapsed) a :=
    (attempts_custody limits).waits _ _ _ (h.asserted.2 _ (List.mem_of_getElem? hcall))
  have hres : Reserved q ((program limits).wait w.shared e.elapsed).usages u :=
    hq ▸ hsound.reserved hu
  have hstep : (program limits).step w e
      = ⟨(((program limits).wait w.shared e.elapsed).exec a).1,
          w.calls.set i (.attempt (((program limits).wait w.shared e.elapsed).exec a).2)⟩ := by
    unfold Program.step
    rw [hmove]
    simp only [hcall]
    rfl
  -- the attempt is over, and has changed nothing
  obtain ⟨hshared, hgone⟩ :
      (((program limits).wait w.shared e.elapsed).exec a).1
          = (program limits).wait w.shared e.elapsed ∧
        (((program limits).wait w.shared e.elapsed).exec a).2.phase.usage? = none := by
    rcases exec_cases _ hsound with ⟨_, heq⟩ | ⟨hlives, hadv⟩
    · rw [heq]
      exact ⟨rfl, rfl⟩
    · rcases hstops with hdead | hraise
      · exact absurd hdead hlives
      · exact ⟨(hadv.raises hwindow hraise).2, (hadv.raises hwindow hraise).1⟩
  refine ⟨u, ?_⟩
  rw [hstep, hshared]
  refine ⟨hres, fun d hd hhasd => ?_⟩
  obtain ⟨j, hj⟩ := List.mem_iff_getElem?.mp hd
  rw [List.getElem?_set] at hj
  split at hj
  · split at hj
    · cases hj
      have hsome : (((program limits).wait w.shared e.elapsed).exec a).2.phase.usage? = some u :=
        hhasd
      rw [hgone] at hsome
      cases hsome
    · cases hj
  next hij => exact h.apart i j _ d hij hcall hj u hhas hhasd

/-- Where no reservation of the run is left in the end, no attempt of it
stopped in the window. -/
theorem survives_of_none (limits : AdmissionLimits) (q : String) :
    ∀ (es : List (Interleave.Event GatewayOp)) (w : World Gateway Running),
      InCustody Drawn SoundRunning Has w →
      (∀ u, ¬ Reserved q (Runs.run (program limits).step w es).shared.usages u) →
      Along (program limits).step ((program limits).Meets (Survives q)) w es
  | [], _, _, _ => trivial
  | e :: es, w, h, hnone => by
    have hnext := (attempts_custody limits).step w e h (meets_trivial w e)
    refine ⟨?_, survives_of_none limits q es _ hnext hnone⟩
    unfold Program.Meets
    cases hmove : e.move with
    | call op => trivial
    | advance i =>
      intro c hc
      cases c with
      | attempt a =>
        intro hq hwindow hstops
        obtain ⟨u, horphan⟩ := orphan_of_stops limits h hmove hc hq hwindow hstops
        have hleft := (attempts_custody limits).orphan_run (fun _ _ h => h)
          (fun g c hI hJ hR hnot => orphan_exec hI hJ hR hnot) es _ hnext horphan
        exact hnone u hleft.1
      | _ => trivial

/-- The attempt has no row in hand: it has not begun, or it is over. -/
def Over (c : Running) : Prop :=
  match c with
  | .attempt a => a.phase.usage? = none
  | _ => True

instance (c : Running) : Decidable (Over c) := by
  unfold Over; split <;> infer_instance

theorem Over.not_has {c : Running} (h : Over c) (u : Nat) : ¬ Has c u := by
  cases c with
  | attempt a =>
    intro hhas
    cases h.symm.trans hhas
  | _ => exact id

/-- Where every attempt of a run survives the window, none of its
reservations is left once they are over. -/
theorem none_of_survives {limits : AdmissionLimits} {q : String}
    {es : List (Interleave.Event GatewayOp)} {w : World Gateway Running}
    (h : InCustody Drawn SoundRunning Has w)
    (hcovered : Covered (fun g u => Reserved q g.usages u) Has w)
    (hQ : Along (program limits).step ((program limits).Meets (Survives q)) w es)
    (hover : ∀ c ∈ (Runs.run (program limits).step w es).calls, Over c) :
    ∀ u, ¬ Reserved q (Runs.run (program limits).step w es).shared.usages u := by
  intro u hu
  obtain ⟨c, hc, hhas⟩ := (attempts_custody limits).covered_run (fun _ _ _ h => h)
    (fun g c u _ hJ hQ hR => covered_exec hJ hQ hR) es w h hQ hcovered u hu
  exact (hover c hc).not_has u hhas

end Gateway

/-- A row that holds a slot of the budget for ever, or until its call ends. -/
def AgentModelUsage.Open (usage : AgentModelUsage) : Prop :=
  usage.status = .reserved ∨ usage.status = .running ∨ usage.status = .started

instance (usage : AgentModelUsage) : Decidable usage.Open := by
  unfold AgentModelUsage.Open; infer_instance

theorem open_expire {usage : AgentModelUsage} {current : Time}
    (hdue : usage.PastDeadline current) :
    (usage.expire current).Open ↔ usage.status = .reserved := by
  by_cases hexp : usage.Expired current
  · have hne : usage.status ≠ .reserved := fun h => by
      have := hexp.1
      rw [h] at this
      cases this
    simp [AgentModelUsage.Open, AgentModelUsage.expire, hexp, hne]
  · have hflight : usage.status.inFlight = false := by
      by_contra h
      exact hexp ⟨Bool.eq_true_of_not_eq_false h, hdue⟩
    have hkept : usage.expire current = usage := if_neg hexp
    rw [hkept]
    constructor
    · rintro (h | h | h)
      · exact h
      · rw [h] at hflight
        cases hflight
      · rw [h] at hflight
        cases hflight
    · exact Or.inl

/-- **No reservation is left behind**, exactly as far as no attempt stops in
the window. From a ledger without rows, whatever the runs are: attempts run
and end in any order, each wherever its process dies or something raises;
then, once the deadlines of a run's rows have passed and a pass of the
reconciler has committed, no row of the run is open if and only if every
attempt of it survived the window between the commit of its reservation and
the next commit. -/
theorem ReconciliationService.no_reservation_left (limits : AdmissionLimits) (sys : Sys)
    (es : List (Interleave.Event Gateway.GatewayOp)) (q : String) (current now : Time)
    (resolver : Option (AgentRun → Option Int)) (g' : Gateway)
    (hover : ∀ c ∈ (Runs.run (Gateway.program limits).step (Gateway.fresh sys) es).calls,
      Gateway.Over c)
    (hdue : ∀ r ∈ PolicyEngine.rowsOf
        (Runs.run (Gateway.program limits).step (Gateway.fresh sys) es).shared.usages q,
      r.PastDeadline current)
    (hpass : runOnceWithUsage
      (Runs.run (Gateway.program limits).step (Gateway.fresh sys) es).shared current now resolver
        = .ok g') :
    (∀ r ∈ PolicyEngine.rowsOf g'.usages q, ¬ r.Open) ↔
      Along (Gateway.program limits).step ((Gateway.program limits).Meets (Gateway.Survives q))
        (Gateway.fresh sys) es := by
  obtain ⟨db, _, hg'⟩ := bind_ok.mp hpass
  cases hg'
  have hcustody := Gateway.inCustody_fresh sys
  constructor
  · intro hnone
    refine Gateway.survives_of_none limits q es _ hcustody fun u hu => ?_
    obtain ⟨r, hfind, hs, hrun⟩ := (Gateway.reserved_expire current).mpr hu
    exact hnone r (List.mem_filter.mpr ⟨Table.mem_of_find? hfind, by simpa using hrun⟩)
      (Or.inl hs)
  · intro hQ r' hr'
    obtain ⟨hmem, hrun⟩ := List.mem_filter.mp hr'
    obtain ⟨r, hr, rfl⟩ := List.mem_map.mp hmem
    have hrun' : r.runId = q := by
      have : (r.expire current).runId = q := by simpa using hrun
      unfold AgentModelUsage.expire at this
      split at this <;> exact this
    rw [open_expire (hdue r (List.mem_filter.mpr ⟨hr, by simpa using hrun'⟩))]
    intro hs
    refine Gateway.none_of_survives hcustody ?_ hQ hover r.usageId
      ⟨r, Table.find?_of_mem hr, hs, hrun'⟩
    rintro u ⟨_, hfind, _⟩
    cases hfind

/-- A call with the fate `fate`, and `n` statements of it. -/
def calling (fate : Fate) (n : Nat) : List (Interleave.Event Gateway.GatewayOp) :=
  ⟨0, .call (.callRoute { ctx := sampleContext, route := sampleRoute, fate := fate })⟩ ::
    List.replicate n ⟨0, .advance 0⟩

/-- A call that succeeds. -/
def succeededCall : List (Interleave.Event Gateway.GatewayOp) :=
  calling { provider := .succeeded (some "request-1") none none } 8

theorem no_reservation_left_succeeded :
    ∃ g', ReconciliationService.runOnceWithUsage
        (Runs.run (Gateway.program {}).step (Gateway.fresh callingRun) succeededCall).shared
        (seconds 61) (seconds 61) none = .ok g' ∧
      ∀ r ∈ PolicyEngine.rowsOf g'.usages "run-1", ¬ r.Open := by
  obtain ⟨g', hpass⟩ : ∃ g', ReconciliationService.runOnceWithUsage
      (Runs.run (Gateway.program {}).step (Gateway.fresh callingRun) succeededCall).shared
      (seconds 61) (seconds 61) none = .ok g' := ⟨_, rfl⟩
  exact ⟨g', hpass, (ReconciliationService.no_reservation_left {} callingRun succeededCall "run-1"
    (seconds 61) (seconds 61) none g' (by decide) (by decide) hpass).mpr (by decide)⟩

/-- The process dies when the reservation is committed. -/
def stoppedCall : World Gateway Gateway.Running :=
  Runs.run (Gateway.program {}).step (Gateway.fresh callingRun) (calling { lives := 1 } 2)

theorem stopped_call_keeps_slot :
    ¬ ∀ (limits : AdmissionLimits) (sys : Sys) (es : List (Interleave.Event Gateway.GatewayOp))
      (q : String) (current now : Time) (resolver : Option (AgentRun → Option Int))
      (g' : Gateway),
      (∀ c ∈ (Runs.run (Gateway.program limits).step (Gateway.fresh sys) es).calls,
        Gateway.Over c) →
      (∀ r ∈ PolicyEngine.rowsOf
          (Runs.run (Gateway.program limits).step (Gateway.fresh sys) es).shared.usages q,
        r.PastDeadline current) →
      ReconciliationService.runOnceWithUsage
        (Runs.run (Gateway.program limits).step (Gateway.fresh sys) es).shared current now resolver
          = .ok g' →
      ∀ r ∈ PolicyEngine.rowsOf g'.usages q, ¬ r.Open := by
  intro h
  obtain ⟨g', hpass⟩ : ∃ g', ReconciliationService.runOnceWithUsage stoppedCall.shared
      (seconds 61) (seconds 61) none = .ok g' := ⟨_, rfl⟩
  have hall := h {} callingRun (calling { lives := 1 } 2) "run-1" (seconds 61) (seconds 61) none g'
    (by decide) (by decide) hpass
  cases hpass
  exact absurd hall (by decide)

end AgentRuntime
