import Mathlib.Data.List.Basic

/-!
# Runs of a step function

A total step function `step : σ → ε → σ` driven by a list of events. `run`
is the run itself, `Along` says that a property of "state before, event"
holds at every step of a run, and the rules below carry an invariant along:
`run_inv` when every step keeps it, `along_inv` when only the steps that
meet a side condition do. `along_append` splits a run where a later part is
argued about on its own.
-/

namespace Runs

variable {σ ε : Type} {step : σ → ε → σ}

/-- The state after the events of `es`, first event first. -/
def run (step : σ → ε → σ) (s : σ) (es : List ε) : σ :=
  es.foldl step s

/-- `P` holds of the state and the event at every step of the run. -/
def Along (step : σ → ε → σ) (P : σ → ε → Prop) : σ → List ε → Prop
  | _, [] => True
  | s, e :: es => P s e ∧ Along step P (step s e) es

@[simp] theorem run_nil (s : σ) : run step s [] = s := rfl

@[simp] theorem run_cons (s : σ) (e : ε) (es : List ε) :
    run step s (e :: es) = run step (step s e) es := rfl

@[simp] theorem run_append (s : σ) (es fs : List ε) :
    run step s (es ++ fs) = run step (run step s es) fs :=
  List.foldl_append ..

instance {P : σ → ε → Prop} [∀ s e, Decidable (P s e)] :
    ∀ (s : σ) (es : List ε), Decidable (Along step P s es)
  | _, [] => inferInstanceAs (Decidable True)
  | s, e :: es =>
    have := instDecidableAlong (P := P) (step s e) es
    inferInstanceAs (Decidable (P s e ∧ Along step P (step s e) es))

theorem along_append {P : σ → ε → Prop} (es fs : List ε) :
    ∀ s, Along step P s (es ++ fs) ↔
      Along step P s es ∧ Along step P (run step s es) fs := by
  induction es with
  | nil => intro s; simp [Along]
  | cons e es ih => intro s; simp only [List.cons_append, Along, ih, run_cons, and_assoc]

/-- What holds at every step that comes after a first part of the run. -/
theorem along_of_steps {P : σ → ε → Prop} (es : List ε) :
    ∀ s, (∀ before e after, es = before ++ e :: after → P (run step s before) e) →
      Along step P s es := by
  induction es with
  | nil => exact fun _ _ => trivial
  | cons e es ih =>
    intro s h
    refine ⟨h [] e es rfl, ih (step s e) fun before e' after hes => ?_⟩
    exact h (e :: before) e' after (by rw [hes]; rfl)

/-- An invariant of the steps that meet `P` holds after a run all of whose
steps meet `P`. -/
theorem along_inv {P : σ → ε → Prop} {I : σ → Prop}
    (hstep : ∀ s e, I s → P s e → I (step s e)) :
    ∀ (es : List ε) (s : σ), I s → Along step P s es → I (run step s es)
  | [], _, h, _ => h
  | e :: es, s, h, hP => along_inv hstep es (step s e) (hstep s e h hP.1) hP.2

/-- An invariant of every step holds after every run. -/
theorem run_inv {I : σ → Prop} (hstep : ∀ s e, I s → I (step s e))
    (es : List ε) (s : σ) (h : I s) : I (run step s es) := by
  induction es generalizing s with
  | nil => exact h
  | cons e es ih => exact ih (step s e) (hstep s e h)

/-- A preorder that every step climbs is climbed by every run. -/
theorem run_mono {R : σ → σ → Prop} (hrefl : ∀ s, R s s)
    (htrans : ∀ {a b c}, R a b → R b c → R a c) (hstep : ∀ s e, R s (step s e))
    (es : List ε) (s : σ) : R s (run step s es) :=
  run_inv (I := R s) (fun t e h => htrans h (hstep t e)) es s (hrefl s)

/-- A property of the steps of invariant states holds along every run. -/
theorem along_of_inv {P : σ → ε → Prop} {I : σ → Prop}
    (hstep : ∀ s e, I s → I (step s e)) (hP : ∀ s e, I s → P s e) :
    ∀ (es : List ε) (s : σ), I s → Along step P s es
  | [], _, _ => trivial
  | e :: es, s, h => ⟨hP s e h, along_of_inv hstep hP es (step s e) (hstep s e h)⟩

/-- The same when only the steps that meet `Q` keep the invariant. -/
theorem along_of_along {P Q : σ → ε → Prop} {I : σ → Prop}
    (hstep : ∀ s e, I s → Q s e → I (step s e)) (hP : ∀ s e, I s → Q s e → P s e) :
    ∀ (es : List ε) (s : σ), I s → Along step Q s es → Along step P s es
  | [], _, _, _ => trivial
  | e :: es, s, h, hQ =>
    ⟨hP s e h hQ.1, along_of_along hstep hP es (step s e) (hstep s e h hQ.1) hQ.2⟩

/-- Two properties that agree on the steps that meet `M` hold along the same
of the runs whose steps meet it. -/
theorem along_congr {M P Q : σ → ε → Prop} (h : ∀ s e, M s e → (P s e ↔ Q s e)) :
    ∀ (es : List ε) (s : σ), Along step M s es → (Along step P s es ↔ Along step Q s es)
  | [], _, _ => Iff.rfl
  | e :: es, s, hM => and_congr (h s e hM.1) (along_congr h es (step s e) hM.2)

/-- Two properties that agree in the states of an invariant hold along the
same runs, if the steps that meet one of them keep the invariant. -/
theorem along_iff {P Q : σ → ε → Prop} {I : σ → Prop} (h : ∀ s e, I s → (P s e ↔ Q s e))
    (hstep : ∀ s e, I s → P s e → I (step s e)) :
    ∀ (es : List ε) (s : σ), I s → (Along step P s es ↔ Along step Q s es)
  | [], _, _ => Iff.rfl
  | e :: es, s, hI => by
    show P s e ∧ Along step P (step s e) es ↔ Q s e ∧ Along step Q (step s e) es
    rw [← h s e hI]
    exact and_congr_right fun hP => along_iff h hstep es (step s e) (hstep s e hI hP)

end Runs
