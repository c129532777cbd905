import AgentRuntime.Perform

/-!
# Cancelled and purged runs

A run whose cancellation was requested, or whose private data is being
purged, is `Closing`. `claim` refuses such a run, so it must not go back to
the queue — but only `start` checks that before it queues a run. The reaper,
`retry`, `approve` and the timeout fallback of the reconciler do not
(`closing_run_requeued` is the reaper's case: cancel a claimed run, let its
worker die). `RequeuesOnlyOpen` says of a step that none of these four takes
a closing run; along runs all of whose steps meet it, a closing run stays
closing and its dispatch state only ever changes to finished
(`closing_never_requeued`).
-/

namespace AgentRuntime

open Keyed Fencing Runs

/-- Cancellation was requested, or the private data is no longer active. -/
def AgentRun.Closing (run : AgentRun) : Prop :=
  run.cancelRequestedAt ≠ none ∨ run.privacyState ≠ .active

/-- The four ways back into the queue are not taken on a closing run: no
reaping of an expired run whose package is executable, no accepted retry, no
accepted approval or rejection to the fallback, no due timeout fallback. -/
def RequeuesOnlyOpen (s : Sys) (e : Event) : Prop :=
  ∀ c r, Causes s.db (s.clock + e.elapsed) e.op c r → c ≠ .claim → ¬ r.Closing

/-- What a step may do to the closing run `q`. -/
def NeverRequeues (limits : AdmissionLimits) (s : Sys) (e : Event) : Prop :=
  ∀ q r r', s.db.runs.find? q = some r → r.Closing →
    (step limits s e).db.runs.find? q = some r' →
    r'.Closing ∧ (r'.dispatchState ≠ r.dispatchState → r'.dispatchState = .finished)

/-- A purge comes with a cancellation. -/
def PurgeCancels (s : Sys) : Prop :=
  ∀ q r, s.db.runs.find? q = some r → r.privacyState ≠ .active → r.cancelRequestedAt ≠ none

variable {limits : AdmissionLimits} {now : Time} {causes : Cause → AgentRun → Prop}

@[simp] theorem cancelRequestedAt_afterEvent (run : AgentRun) (event : Option String) :
    (run.afterEvent event).cancelRequestedAt = run.cancelRequestedAt := by
  cases event <;> rfl

@[simp] theorem privacyState_afterEvent (run : AgentRun) (event : Option String) :
    (run.afterEvent event).privacyState = run.privacyState := by
  cases event <;> rfl

@[simp] theorem dispatchState_afterEvent (run : AgentRun) (event : Option String) :
    (run.afterEvent event).dispatchState = run.dispatchState := by
  cases event <;> rfl

/-- A cancellation request is never withdrawn, and a purge brings one. -/
theorem Move.cancel_sticky {r r' : AgentRun} {shift : Shift} {event : Option String}
    (h : Move limits now causes r r' shift event) :
    (r.cancelRequestedAt ≠ none → r'.cancelRequestedAt ≠ none) ∧
      (r'.privacyState = r.privacyState ∨ r'.cancelRequestedAt ≠ none ∨
        r.privacyState = .purgeRequested) := by
  cases h with
  | requestCancel => exact ⟨fun _ => by simp [AgentRun.requestCancel], Or.inl rfl⟩
  | cancelNow => exact ⟨fun _ => by simp [AgentRun.cancelNow], Or.inl rfl⟩
  | requestPurge =>
    exact ⟨fun _ => by simp [AgentRun.requestPurge],
      Or.inr (Or.inl (by simp [AgentRun.requestPurge]))⟩
  | purge hp => exact ⟨fun hc => hc, Or.inr (Or.inr hp)⟩
  | stop => exact ⟨fun _ => by simp [AgentRun.requestCancelWith], Or.inl rfl⟩
  | _ => exact ⟨fun hc => hc, Or.inl rfl⟩

/-- A closing run stays closing. -/
theorem Move.closing {r r' : AgentRun} {shift : Shift} {event : Option String}
    (h : Move limits now causes r r' shift event) (hc : r.Closing) : r'.Closing := by
  cases h with
  | requestCancel => exact Or.inl (by simp [AgentRun.requestCancel])
  | cancelNow => exact Or.inl (by simp [AgentRun.cancelNow])
  | requestPurge => exact Or.inl (by simp [AgentRun.requestPurge])
  | purge => exact Or.inr (by simp [AgentRun.purge])
  | stop => exact Or.inl (by simp [AgentRun.requestCancelWith])
  | _ => exact hc

/-- Where a closing run may be dispatched to, if the four ways back are not
taken on it. -/
theorem Move.closing_dispatch {r r' : AgentRun} {shift : Shift} {event : Option String}
    (h : Move limits now causes r r' shift event) (hclosing : r.Closing)
    (hcancel : r.privacyState ≠ .active → r.cancelRequestedAt ≠ none)
    (hopen : ∀ c, causes c r → c ≠ .claim → ¬ r.Closing) :
    r'.dispatchState = r.dispatchState ∨ r'.dispatchState = .finished := by
  have hset : r.cancelRequestedAt ≠ none := hclosing.elim id hcancel
  cases h with
  | start _ _ _ hc => exact absurd hc hset
  | retry _ _ _ hc => exact absurd hclosing (hopen .retry hc (by decide))
  | approve _ _ hc => exact absurd hclosing (hopen .approve hc (by decide))
  | claim hcl => exact absurd hcl.2.2 hset
  | reap _ _ hc => exact absurd hclosing (hopen .reap hc (by decide))
  | fallback _ _ hc => exact absurd hclosing (hopen .fallback hc (by decide))
  | cancelNow => exact Or.inr rfl
  | reject => exact Or.inr rfl
  | finish => exact Or.inr rfl
  | pause => exact Or.inr rfl
  | terminate => exact Or.inr rfl
  | _ => exact Or.inl rfl

theorem purgeCancels_step (limits : AdmissionLimits) (s : Sys) (e : Event)
    (h : PurgeCancels s) : PurgeCancels (step limits s e) := by
  intro q r' hfind' hp
  cases step_runStep limits s e q with
  | same hs => exact h q r' (hs.row ▸ hfind') hp
  | created _ command definition policy callerId tenantId av hrow =>
    rw [hrow] at hfind'
    cases hfind'
    exact absurd rfl hp
  | moved r r₁ shift event hfind hmove hrow =>
    rw [hrow] at hfind'
    cases hfind'
    rw [privacyState_afterEvent] at hp
    rw [cancelRequestedAt_afterEvent]
    obtain ⟨hsticky, hsame | hset | hpurge⟩ := hmove.cancel_sticky
    · exact hsticky (h q r hfind (hsame ▸ hp))
    · exact hset
    · exact hsticky (h q r hfind (by rw [hpurge]; decide))

/-- A step that requeues only open runs never requeues a closing one. -/
theorem neverRequeues_step {s : Sys} {e : Event} (hinv : PurgeCancels s)
    (hopen : RequeuesOnlyOpen s e) : NeverRequeues limits s e := by
  intro q r r' hfind hclosing hfind'
  cases step_runStep limits s e q with
  | same hs =>
    rw [hs.row, hfind] at hfind'
    cases hfind'
    exact ⟨hclosing, fun hne => absurd rfl hne⟩
  | created hnone =>
    rw [hfind] at hnone
    cases hnone
  | moved r₀ r₁ shift event hfind₀ hmove hrow =>
    rw [hfind] at hfind₀
    cases hfind₀
    rw [hrow] at hfind'
    cases hfind'
    have hdisp := hmove.closing_dispatch hclosing (hinv q r hfind)
      (fun c hc hne => hopen c r hc hne)
    refine ⟨?_, fun hne => ?_⟩
    · have hcl := hmove.closing hclosing
      simpa [AgentRun.Closing] using hcl
    · rw [dispatchState_afterEvent] at hne ⊢
      exact hdisp.resolve_left hne

/-- **Cancelled or purged runs stay out of the queue** in every run whose
steps requeue only open runs. -/
theorem closing_never_requeued (limits : AdmissionLimits) (es : List Event)
    (hopen : Along (step limits) RequeuesOnlyOpen {} es) :
    Along (step limits) (NeverRequeues limits) {} es := by
  have h₀ : PurgeCancels {} := fun q r hfind => by cases hfind
  exact along_of_along (fun s e h _ => purgeCancels_step limits s e h)
    (fun s e h hQ => neverRequeues_step h hQ) es {} h₀ hopen

/-- A worker's run is cancelled, and the worker lets go of it. -/
def cancelledRun : List Event :=
  claimedRun ++ [after 1 (.cancel "run-1" "caller"), after 1 (.finishAfterInvalidBoundary 0)]

theorem closing_never_requeued_cancelled :
    Along (step {}) (NeverRequeues {}) {} cancelledRun ∧
      ((reach {} cancelledRun).db.runs.find? "run-1").map (·.dispatchState) = some .finished := by
  refine ⟨closing_never_requeued {} cancelledRun ?_, rfl⟩
  refine ⟨?_, ?_, ?_, ?_, ?_, trivial⟩ <;> rintro c r ⟨_, hc⟩ hne <;> cases c <;>
    first | exact absurd rfl hne | exact hc.elim

/-- A worker's run is cancelled, and the worker is never heard of again. -/
def abandonedRun : List Event :=
  claimedRun ++ [after 1 (.cancel "run-1" "caller")]

/-- The reaper puts a cancelled run back into the queue. -/
theorem closing_run_requeued :
    ¬ ∀ (limits : AdmissionLimits) (es : List Event),
      Along (step limits) (NeverRequeues limits) {} es := by
  intro hall
  have h := (along_append abandonedRun [after 91 .reapExpired] ({} : Sys)).mp
    (hall {} (abandonedRun ++ [after 91 .reapExpired]))
  obtain ⟨_, hreap, _⟩ := h
  have hrow := hreap "run-1" _ _ rfl (Or.inl (by decide)) rfl
  exact absurd (hrow.2 (by decide)) (by decide)

end AgentRuntime
