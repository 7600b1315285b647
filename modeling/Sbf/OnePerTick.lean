import Mathlib.Data.List.Basic

set_option autoImplicit false

/-! A server that finishes at most one job at each tick, and how far it gets. -/
namespace OnePerTick

/-- The jobs that are done after some ticks; at each of them stands the number of
jobs that have arrived by then. -/
def served : Nat → List Nat → Nat
  | done, [] => done
  | done, total :: later => served (min (done + 1) total) later

theorem served_next (done total : Nat) (later : List Nat) (here : done + 1 ≤ total) :
    served done (total :: later) = served (done + 1) later := by
  rw [served, Nat.min_eq_left here]

theorem served_waits (total : Nat) (later : List Nat) :
    served total (total :: later) = served total later := by
  rw [served, Nat.min_eq_right (Nat.le_succ total)]

/-- A goal is reached exactly when it is reached from the start and from the arrivals
of each tick, at one job a tick from there. -/
theorem le_served_iff (goal done : Nat) (totals : List Nat) :
    goal ≤ served done totals ↔ goal ≤ done + totals.length ∧
      ∀ (i : Nat) (total : Nat), totals[i]? = some total →
        goal ≤ total + (totals.length - (i + 1)) := by
  induction totals generalizing done with
  | nil => simp [served]
  | cons first later ih =>
      rw [served, ih]
      constructor
      · rintro ⟨start, each⟩
        refine ⟨by rw [List.length_cons]; omega, ?_⟩
        intro i total found
        cases i with
        | zero =>
            cases found
            rw [List.length_cons]
            omega
        | succ i =>
            have behind := each i total found
            rw [List.length_cons]
            omega
      · rintro ⟨start, each⟩
        have here := each 0 first rfl
        rw [List.length_cons] at start here
        refine ⟨by omega, ?_⟩
        intro i total found
        have behind := each (i + 1) total found
        rw [List.length_cons] at behind
        omega

theorem le_served (done : Nat) (totals : List Nat) (arrived : ∀ total ∈ totals, done ≤ total) :
    done ≤ served done totals := by
  rw [le_served_iff]
  refine ⟨by omega, ?_⟩
  intro i total found
  have enough := arrived total (List.mem_of_getElem? found)
  omega

theorem served_le (bound done : Nat) (totals : List Nat) (start : done ≤ bound)
    (each : ∀ total ∈ totals, total ≤ bound) : served done totals ≤ bound := by
  induction totals generalizing done with
  | nil => exact start
  | cons first later ih =>
      have here := each first List.mem_cons_self
      exact ih _ (by omega) (fun total member => each total (List.mem_cons_of_mem _ member))

end OnePerTick
