import Mathlib.Data.List.Basic

set_option autoImplicit false

/-! The elements of a list where they first appear. -/
namespace List

variable {α : Type} [DecidableEq α]

/-- The elements that were not seen before, each once, in the order of the list. -/
def firstSeen (seen : List α) : List α → List α
  | [] => []
  | x :: rest =>
      if x ∈ seen then firstSeen seen rest else x :: firstSeen (seen ++ [x]) rest

theorem mem_firstSeen {seen l : List α} {y : α} : y ∈ firstSeen seen l ↔ y ∈ l ∧ y ∉ seen := by
  induction l generalizing seen with
  | nil => simp [firstSeen]
  | cons x rest ih =>
      rw [firstSeen]
      split
      case isTrue old =>
          rw [ih, mem_cons]
          constructor
          · intro inside
            exact ⟨Or.inr inside.1, inside.2⟩
          · intro inside
            have other : y ≠ x := fun same => inside.2 (same ▸ old)
            exact ⟨inside.1.resolve_left other, inside.2⟩
      case isFalse fresh =>
          rw [mem_cons, ih, mem_cons, mem_append, mem_singleton]
          by_cases here : y = x
          · simp [here, fresh]
          · simp [here]

theorem nodup_firstSeen (seen l : List α) : (firstSeen seen l).Nodup := by
  induction l generalizing seen with
  | nil => exact nodup_nil
  | cons x rest ih =>
      rw [firstSeen]
      split
      case isTrue => exact ih seen
      case isFalse =>
          rw [nodup_cons]
          refine ⟨?_, ih _⟩
          intro again
          exact (mem_firstSeen.mp again).2 (mem_append_right _ (mem_singleton.mpr rfl))

/-- They keep the order in which they first appear. -/
theorem firstSeen_order (seen l : List α) :
    (firstSeen seen l).Pairwise (fun left right => l.idxOf left < l.idxOf right) := by
  have later : ∀ {x : α} {rest names : List α}, x ∉ names →
      names.Pairwise (fun left right => rest.idxOf left < rest.idxOf right) →
      names.Pairwise (fun left right => (x :: rest).idxOf left < (x :: rest).idxOf right) := by
    intro x rest names absent ordered
    refine ordered.imp_of_mem ?_
    intro left right leftIn rightIn before
    have leftOther : x ≠ left := fun same => absent (same ▸ leftIn)
    have rightOther : x ≠ right := fun same => absent (same ▸ rightIn)
    rw [idxOf_cons_ne _ leftOther, idxOf_cons_ne _ rightOther]
    exact Nat.succ_lt_succ before
  induction l generalizing seen with
  | nil => exact .nil
  | cons x rest ih =>
      rw [firstSeen]
      split
      case isTrue old =>
          refine later ?_ (ih seen)
          intro inside
          exact (mem_firstSeen.mp inside).2 old
      case isFalse =>
          have absent : x ∉ firstSeen (seen ++ [x]) rest := by
            intro again
            exact (mem_firstSeen.mp again).2 (mem_append_right _ (mem_singleton.mpr rfl))
          refine .cons ?_ (later absent (ih _))
          intro right inside
          have other : x ≠ right := fun same => absent (same ▸ inside)
          rw [idxOf_cons_self, idxOf_cons_ne _ other]
          exact Nat.succ_pos _

end List
