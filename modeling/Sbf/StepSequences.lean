import Mathlib.Data.List.Forall2

set_option autoImplicit false

/-! Steps that may fail, change a state and emit outputs, and their sequences:
composition, invariants over whole sequences, and simulation of one sequence of
steps by another. -/

/-- From a state to a failure, or to the next state and what was emitted. -/
def Step (ε σ ω : Type) : Type := σ → Except ε (σ × List ω)

namespace Step

variable {ε σ τ ω ν : Type}

def skip : Step ε σ ω := fun state => .ok (state, [])

/-- First one step, then the other, their outputs in that order. -/
def andThen (first second : Step ε σ ω) : Step ε σ ω := fun state =>
  match first state with
  | .error failure => .error failure
  | .ok (state, out) =>
      match second state with
      | .error failure => .error failure
      | .ok (state, more) => .ok (state, out ++ more)

/-- All steps of a list in order. -/
def all : List (Step ε σ ω) → Step ε σ ω
  | [] => skip
  | step :: rest => step.andThen (all rest)

@[simp] theorem all_nil : all ([] : List (Step ε σ ω)) = skip := rfl

@[simp] theorem all_cons (step : Step ε σ ω) (rest : List (Step ε σ ω)) :
    all (step :: rest) = step.andThen (all rest) := rfl

theorem andThen_ok {first : Step ε σ ω} {state next : σ} {out : List ω}
    (ran : first state = .ok (next, out)) (second : Step ε σ ω) :
    first.andThen second state =
      match second next with
      | .error failure => .error failure
      | .ok (last, more) => .ok (last, out ++ more) := by
  simp only [andThen, ran]

theorem andThen_error {first : Step ε σ ω} {state : σ} {failure : ε}
    (failed : first state = .error failure) (second : Step ε σ ω) :
    first.andThen second state = .error failure := by
  simp only [andThen, failed]

theorem andThen_ok_ok {first second : Step ε σ ω} {state next last : σ} {out more : List ω}
    (ran : first state = .ok (next, out)) (then_ran : second next = .ok (last, more)) :
    first.andThen second state = .ok (last, out ++ more) := by
  simp only [andThen, ran, then_ran]

/-- A sequence that succeeds has succeeded in both parts. -/
theorem andThen_inv {first second : Step ε σ ω} {state last : σ} {outputs : List ω}
    (ran : first.andThen second state = .ok (last, outputs)) :
    ∃ next out more, first state = .ok (next, out) ∧ second next = .ok (last, more) ∧
      outputs = out ++ more := by
  cases one : first state with
  | error failure =>
      rw [andThen_error one] at ran
      cases ran
  | ok result =>
      obtain ⟨next, out⟩ := result
      rw [andThen_ok one] at ran
      cases two : second next with
      | error failure =>
          simp only [two] at ran
          cases ran
      | ok result =>
          simp only [two] at ran
          cases ran
          exact ⟨next, out, result.2, rfl, two, rfl⟩

@[simp] theorem skip_andThen (step : Step ε σ ω) : skip.andThen step = step := by
  funext state
  simp only [andThen, skip, List.nil_append]
  cases step state <;> rfl

@[simp] theorem andThen_skip (step : Step ε σ ω) : step.andThen skip = step := by
  funext state
  simp only [andThen, skip, List.append_nil]
  cases step state <;> rfl

theorem andThen_assoc (first second third : Step ε σ ω) :
    (first.andThen second).andThen third = first.andThen (second.andThen third) := by
  funext state
  cases ran : first state with
  | error failure => rw [andThen_error (andThen_error ran second), andThen_error ran]
  | ok result =>
      obtain ⟨next, out⟩ := result
      rw [andThen_ok ran]
      cases then_ran : second next with
      | error failure =>
          have failed : first.andThen second state = .error failure := by
            rw [andThen_ok ran, then_ran]
          rw [andThen_error failed, andThen_error then_ran]
      | ok result =>
          obtain ⟨last, more⟩ := result
          rw [andThen_ok (andThen_ok_ok ran then_ran), andThen_ok then_ran]
          cases third last with
          | error failure => rfl
          | ok result => simp only [List.append_assoc]

theorem all_append (first second : List (Step ε σ ω)) :
    all (first ++ second) = (all first).andThen (all second) := by
  induction first with
  | nil => simp
  | cons step rest ih => simp only [List.cons_append, all_cons, ih, andThen_assoc]

theorem all_flatten (parts : List (List (Step ε σ ω))) :
    all parts.flatten = all (parts.map all) := by
  induction parts with
  | nil => rfl
  | cons part rest ih => simp only [List.flatten_cons, all_append, List.map_cons, all_cons, ih]

instance decidableEnds (result : Except ε (σ × List ω)) (p : σ → List ω → Prop)
    [∀ state out, Decidable (p state out)] :
    Decidable (∃ state out, result = .ok (state, out) ∧ p state out) :=
  match result with
  | .error _ => isFalse (fun ⟨_, _, same, _⟩ => nomatch same)
  | .ok (state, out) =>
      decidable_of_iff (p state out)
        ⟨fun holds => ⟨state, out, rfl, holds⟩, fun ⟨_, _, same, holds⟩ => by cases same; exact holds⟩

instance decidableFails {α : Type} (result : Except ε α) (failure : ε) [DecidableEq ε] :
    Decidable (result = .error failure) :=
  match result with
  | .error other => decidable_of_iff (other = failure) ⟨congrArg _, Except.error.inj⟩
  | .ok _ => isFalse nofun

/-- Every step of a sequence is taken from a state that has a property. -/
def Along {β : Type} (step : β → Step ε σ ω) (p : σ → β → Prop) : σ → List β → Prop
  | _, [] => True
  | state, input :: rest =>
      p state input ∧ ∀ next out, step input state = .ok (next, out) → Along step p next rest

instance decidableAlong {β : Type} (step : β → Step ε σ ω) (p : σ → β → Prop)
    [∀ state input, Decidable (p state input)] :
    ∀ state inputs, Decidable (Along step p state inputs)
  | _, [] => isTrue trivial
  | state, input :: rest =>
      match ran : step input state with
      | .error _ =>
          decidable_of_iff (p state input)
            ⟨fun here => ⟨here, fun _ _ ok => nomatch ran.symm.trans ok⟩, And.left⟩
      | .ok (next, out) =>
          have := decidableAlong step p next rest
          decidable_of_iff (p state input ∧ Along step p next rest)
            ⟨fun both => ⟨both.1, fun _ _ ok => by cases ran.symm.trans ok; exact both.2⟩,
              fun both => ⟨both.1, both.2 next out ran⟩⟩

/-- What each such step keeps, the sequence keeps. -/
theorem Along.keeps {β : Type} {step : β → Step ε σ ω} {p : σ → β → Prop} {invariant : σ → Prop}
    (each : ∀ {state input next out}, invariant state → p state input →
      step input state = .ok (next, out) → invariant next) {state last : σ} {inputs : List β}
    {outputs : List ω} (along : Along step p state inputs) (start : invariant state)
    (ran : all (inputs.map step) state = .ok (last, outputs)) : invariant last := by
  induction inputs generalizing state outputs with
  | nil =>
      cases ran
      exact start
  | cons input rest ih =>
      obtain ⟨next, out, more, one, then_ran, _⟩ := andThen_inv ran
      exact ih (along.2 next out one) (each start along.1 one) then_ran

/-- A sequence runs through exactly when each step is taken where it succeeds. -/
theorem all_ok_iff {β : Type} {step : β → Step ε σ ω} {p : σ → β → Prop}
    (each : ∀ state input, (∃ next out, step input state = .ok (next, out)) ↔ p state input)
    (state : σ) (inputs : List β) :
    (∃ last out, all (inputs.map step) state = .ok (last, out)) ↔ Along step p state inputs := by
  induction inputs generalizing state with
  | nil => exact iff_of_true ⟨state, [], rfl⟩ trivial
  | cons input rest ih =>
      constructor
      · rintro ⟨last, out, ran⟩
        obtain ⟨next, first, later, one, two, _⟩ := andThen_inv ran
        refine ⟨(each state input).mp ⟨next, first, one⟩, ?_⟩
        intro next' first' one'
        cases one.symm.trans one'
        exact (ih next).mp ⟨last, later, two⟩
      · rintro ⟨here, along⟩
        obtain ⟨next, first, one⟩ := (each state input).mpr here
        obtain ⟨last, later, two⟩ := (ih next).mpr (along next first one)
        exact ⟨last, first ++ later, andThen_ok_ok one two⟩

/-- What holds of all outputs of each step holds of all outputs of a sequence. -/
theorem all_outputs {β : Type} {step : β → Step ε σ ω} {p : ω → Prop}
    (each : ∀ state input next out, step input state = .ok (next, out) → ∀ output ∈ out, p output)
    {state last : σ} {inputs : List β} {outputs : List ω}
    (ran : all (inputs.map step) state = .ok (last, outputs)) : ∀ output ∈ outputs, p output := by
  induction inputs generalizing state outputs with
  | nil =>
      cases ran
      exact List.forall_mem_nil _
  | cons input rest ih =>
      obtain ⟨next, first, later, one, two, rfl⟩ := andThen_inv ran
      intro output member
      rcases List.mem_append.mp member with here | behind
      · exact each state input next first one output here
      · exact ih two output behind

/-- A step of the implementation simulates one of the specification: from related
states it succeeds, its states stay related and its outputs correspond. -/
def Simulates (related : σ → τ → Prop) (shows : ω → ν → Prop)
    (step : Step ε σ ω) (spec : τ → τ × List ν) : Prop :=
  ∀ state abstract, related state abstract → ∃ next out, step state = .ok (next, out) ∧
    related next (spec abstract).1 ∧ List.Forall₂ shows out (spec abstract).2

/-- The specification's own sequences: total functions, outputs appended. -/
def runSpec : List (τ → τ × List ν) → τ → τ × List ν
  | [], abstract => (abstract, [])
  | spec :: rest, abstract =>
      let first := spec abstract
      let later := runSpec rest first.1
      (later.1, first.2 ++ later.2)

theorem runSpec_append (first second : List (τ → τ × List ν)) (abstract : τ) :
    runSpec (first ++ second) abstract =
      ((runSpec second (runSpec first abstract).1).1,
        (runSpec first abstract).2 ++ (runSpec second (runSpec first abstract).1).2) := by
  induction first generalizing abstract with
  | nil => rfl
  | cons spec rest ih => simp only [List.cons_append, runSpec, ih, List.append_assoc]

/-- Steps that simulate one by one simulate as sequences. -/
theorem all_simulates {related : σ → τ → Prop} {shows : ω → ν → Prop} {β : Type}
    (step : β → Step ε σ ω) (spec : β → τ → τ × List ν) (inputs : List β)
    (each : ∀ input ∈ inputs, Simulates related shows (step input) (spec input)) :
    Simulates related shows (all (inputs.map step)) (runSpec (inputs.map spec)) := by
  induction inputs with
  | nil =>
      intro state abstract start
      exact ⟨state, [], rfl, start, .nil⟩
  | cons input rest ih =>
      intro state abstract start
      obtain ⟨next, out, ran, middle, same⟩ := each input (by simp) state abstract start
      obtain ⟨last, more, then_ran, finish, same'⟩ :=
        ih (fun input member => each input (by simp [member])) next _ middle
      exact ⟨last, out ++ more, andThen_ok_ok ran then_ran, finish, List.rel_append same same'⟩

/-- Steps that succeed where those of a partial specification do, and with the same outputs, do
so as sequences. The relation may depend on how many steps were taken. -/
theorem all_refines {related : Nat → σ → τ → Prop} {δ β : Type} {step : β → Step ε σ ω}
    {spec : β → Step δ τ ω} {limit : Nat}
    (each : ∀ {count input state abstract next out}, count < limit → related count state abstract →
      spec input abstract = .ok (next, out) →
      ∃ after, step input state = .ok (after, out) ∧ related (count + 1) after next)
    {inputs : List β} {count : Nat} {state : σ} {abstract last : τ} {outputs : List ω}
    (enough : count + inputs.length ≤ limit) (start : related count state abstract)
    (ran : all (inputs.map spec) abstract = .ok (last, outputs)) :
    ∃ final, all (inputs.map step) state = .ok (final, outputs) ∧
      related (count + inputs.length) final last := by
  induction inputs generalizing count state abstract outputs with
  | nil =>
      cases ran
      exact ⟨state, rfl, start⟩
  | cons input rest ih =>
      rw [List.length_cons] at enough ⊢
      obtain ⟨next, out, more, one, two, rfl⟩ := andThen_inv ran
      obtain ⟨after, here, onward⟩ := each (by omega) start one
      obtain ⟨final, there, finish⟩ := ih (by omega) onward two
      refine ⟨final, andThen_ok_ok here there, ?_⟩
      rwa [show count + (rest.length + 1) = count + 1 + rest.length by omega]

/-- The result of a step is the expected one: the same failure, or the same outputs and a state
that is related to the expected one. -/
def Agrees (related : σ → τ → Prop) (result : Except ε (σ × List ω)) :
    Except ε (τ × List ω) → Prop
  | .error failure => result = .error failure
  | .ok (next, out) => ∃ state, result = .ok (state, out) ∧ related state next

/-- Steps that agree with those of a specification agree as sequences, failures included. -/
theorem all_agrees {related : σ → τ → Prop} {β : Type} {step : β → Step ε σ ω}
    {spec : β → Step ε τ ω}
    (each : ∀ {input state abstract}, related state abstract →
      Agrees related (step input state) (spec input abstract))
    (inputs : List β) {state : σ} {abstract : τ} (start : related state abstract) :
    Agrees related (all (inputs.map step) state) (all (inputs.map spec) abstract) := by
  induction inputs generalizing state abstract with
  | nil => exact ⟨state, rfl, start⟩
  | cons input rest ih =>
      have here : Agrees related (step input state) (spec input abstract) := each start
      simp only [List.map_cons, all_cons]
      cases ran : spec input abstract with
      | error failure =>
          rw [ran] at here
          rw [andThen_error ran]
          exact andThen_error here _
      | ok result =>
          obtain ⟨next, out⟩ := result
          rw [ran] at here
          obtain ⟨after, one, onward⟩ := here
          have there := ih onward
          rw [andThen_ok ran, andThen_ok one]
          cases then_ran : all (rest.map spec) next with
          | error failure =>
              rw [then_ran] at there
              rw [(there : _ = _)]
              rfl
          | ok result =>
              obtain ⟨last, more⟩ := result
              rw [then_ran] at there
              obtain ⟨final, two, finish⟩ := there
              rw [two]
              exact ⟨final, rfl, finish⟩

end Step
