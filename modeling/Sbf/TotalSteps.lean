import Mathlib.Data.List.Basic

set_option autoImplicit false

/-! Sequences of steps that always succeed: conditions on the steps of a run, and what
they keep. -/

namespace TotalStep

variable {σ β : Type}

/-- All steps in order. -/
def run (step : β → σ → σ) (inputs : List β) (state : σ) : σ :=
  inputs.foldl (fun state input => step input state) state

/-- A condition on each step of a run, with the state that it is taken from. -/
def Along (step : β → σ → σ) (p : β → σ → Prop) : List β → σ → Prop
  | [], _ => True
  | input :: rest, state => p input state ∧ Along step p rest (step input state)

variable {step : β → σ → σ} {p q : β → σ → Prop}

@[simp] theorem run_nil (state : σ) : run step [] state = state := rfl

@[simp] theorem run_cons (input : β) (rest : List β) (state : σ) :
    run step (input :: rest) state = run step rest (step input state) := rfl

theorem run_append (first second : List β) (state : σ) :
    run step (first ++ second) state = run step second (run step first state) :=
  List.foldl_append ..

theorem along_append (first second : List β) (state : σ) :
    Along step p (first ++ second) state ↔
      Along step p first state ∧ Along step p second (run step first state) := by
  induction first generalizing state with
  | nil => simp [Along]
  | cons input rest ih => rw [List.cons_append, Along, Along, ih, and_assoc, run_cons]

theorem along_and (inputs : List β) (state : σ) :
    Along step (fun input state => p input state ∧ q input state) inputs state ↔
      Along step p inputs state ∧ Along step q inputs state := by
  induction inputs generalizing state with
  | nil => simp [Along]
  | cons input rest ih =>
      simp only [Along, ih]
      exact and_and_and_comm

theorem along_replicate {input : β} (always : ∀ state, p input state) (times : Nat) (state : σ) :
    Along step p (List.replicate times input) state := by
  induction times generalizing state with
  | zero => exact trivial
  | succ times ih => exact ⟨always state, ih _⟩

/-- What each step keeps that meets the condition, the run keeps. -/
theorem Along.keeps (invariant : σ → Prop)
    (each : ∀ input state, invariant state → p input state → invariant (step input state))
    {inputs : List β} {state : σ} (along : Along step p inputs state) (start : invariant state) :
    invariant (run step inputs state) := by
  induction inputs generalizing state with
  | nil => exact start
  | cons input rest ih => exact ih along.2 (each input state start along.1)

/-- What every step keeps, the run keeps. -/
theorem run_keeps (invariant : σ → Prop)
    (each : ∀ input state, invariant state → invariant (step input state)) (inputs : List β)
    {state : σ} (start : invariant state) : invariant (run step inputs state) := by
  induction inputs generalizing state with
  | nil => exact start
  | cons input rest ih => exact ih (each input state start)

/-- Conditions that agree where an invariant holds agree along the runs that keep it; a step
has to keep it only where it meets the condition. -/
theorem along_iff (invariant : σ → Prop)
    (each : ∀ input state, invariant state → p input state → invariant (step input state))
    (same : ∀ input state, invariant state → (p input state ↔ q input state)) (inputs : List β)
    {state : σ} (start : invariant state) :
    Along step p inputs state ↔ Along step q inputs state := by
  induction inputs generalizing state with
  | nil => exact Iff.rfl
  | cons input rest ih =>
      refine and_congr_left_iff.mpr ?_ |>.trans (and_congr_right fun here => ?_)
      · exact fun _ => same input state start
      · exact ih (each input state start ((same input state start).mpr here))

/-- A flaw that is there to stay comes with the first step that misses the condition. -/
theorem along_iff_flawless (invariant flaw : σ → Prop)
    (keeps : ∀ input state, invariant state → invariant (step input state))
    (each : ∀ input state, invariant state →
      (flaw (step input state) ↔ flaw state ∨ ¬ p input state))
    (inputs : List β) {state : σ} (sound : invariant state) (start : ¬ flaw state) :
    Along step p inputs state ↔ ¬ flaw (run step inputs state) := by
  have stays : ∀ inputs {state}, invariant state → flaw state → flaw (run step inputs state) := by
    intro inputs
    induction inputs with
    | nil => exact fun _ flawed => flawed
    | cons input rest ih =>
        exact fun sound flawed => ih (keeps input _ sound) ((each input _ sound).mpr (.inl flawed))
  induction inputs generalizing state with
  | nil => exact iff_of_true trivial start
  | cons input rest ih =>
      have next := each input state sound
      by_cases here : p input state
      · have flawless : ¬ flaw (step input state) :=
          fun flawed => (next.mp flawed).elim start (fun missed => missed here)
        exact (and_iff_right here).trans (ih (keeps input state sound) flawless)
      · exact iff_of_false (fun along => here along.1)
          (not_not_intro (stays rest (keeps input state sound) (next.mpr (.inr here))))

end TotalStep
