import Mathlib.Data.List.Count

set_option autoImplicit false

/-! Sequences of parts that each have a mark behind them. -/

namespace Terminated

variable {α : Type} (mark : α)

/-- The parts, each with the mark behind it. -/
def join (parts : List (List α)) : List α := parts.flatMap (· ++ [mark])

@[simp] theorem join_nil : join mark [] = [] := rfl

@[simp] theorem join_cons (part : List α) (parts : List (List α)) :
    join mark (part :: parts) = part ++ mark :: join mark parts := by
  simp only [join, List.flatMap_cons, List.append_assoc, List.singleton_append]

/-- Each part takes at least its mark. -/
theorem length_le_join (parts : List (List α)) : parts.length ≤ (join mark parts).length := by
  induction parts with
  | nil => exact Nat.le_refl _
  | cons part parts ih =>
      simp only [join_cons, List.length_append, List.length_cons]
      omega

theorem getLast?_join {parts : List (List α)} (some_ : parts ≠ []) :
    (join mark parts).getLast? = some mark := by
  induction parts with
  | nil => exact absurd rfl some_
  | cons part parts ih =>
      rw [join_cons, List.getLast?_append, List.getLast?_cons, Option.some_or]
      cases parts with
      | nil => rfl
      | cons next others =>
          have later := ih (List.cons_ne_nil _ _)
          rw [later, Option.getD_some]

variable {mark}

/-- Parts without the mark in them are counted by it. -/
theorem count_join [DecidableEq α] {parts : List (List α)} (plain : ∀ part ∈ parts, mark ∉ part) :
    (join mark parts).count mark = parts.length := by
  induction parts with
  | nil => rfl
  | cons part parts ih =>
      have here := List.count_eq_zero_of_not_mem (plain part List.mem_cons_self)
      have later := ih fun other member => plain other (List.mem_cons_of_mem _ member)
      rw [join_cons, List.count_append, List.count_cons_self, here, later, List.length_cons]
      omega

/-- A text that ends in the mark, if it has an end, is made of such parts. -/
theorem exists_join [DecidableEq α] {text : List α}
    (ended : text = [] ∨ text.getLast? = some mark) :
    ∃ parts, (∀ part ∈ parts, mark ∉ part) ∧ join mark parts = text := by
  induction text with
  | nil => exact ⟨[], List.forall_mem_nil _, rfl⟩
  | cons c rest ih =>
      have last : (c :: rest).getLast? = some mark := ended.resolve_left (List.cons_ne_nil _ _)
      have ended' : rest = [] ∨ rest.getLast? = some mark := by
        cases rest with
        | nil => exact Or.inl rfl
        | cons next others =>
            right
            rwa [List.getLast?_cons_cons] at last
      obtain ⟨parts, plain, joined⟩ := ih ended'
      by_cases here : c = mark
      · refine ⟨[] :: parts, ?_, by rw [join_cons, joined, here]; rfl⟩
        intro part member
        cases List.mem_cons.mp member with
        | inl same => rw [same]; exact List.not_mem_nil
        | inr later => exact plain part later
      · cases parts with
        | nil =>
            cases joined
            exact absurd (Option.some.inj last) here
        | cons part others =>
            refine ⟨(c :: part) :: others, ?_, ?_⟩
            · intro other member
              cases List.mem_cons.mp member with
              | inl same =>
                  rw [same, List.mem_cons]
                  intro inside
                  cases inside with
                  | inl first => exact here first.symm
                  | inr behind => exact plain part List.mem_cons_self behind
              | inr later => exact plain other (List.mem_cons_of_mem _ later)
            · rw [← joined, join_cons, join_cons, List.cons_append]

end Terminated
