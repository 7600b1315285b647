import Mathlib.Data.List.Nodup
import Mathlib.Logic.Function.Basic

set_option autoImplicit false

/-! Singly linked lists in a shared memory: each cell holds the address of the next, and a
list is known by the address of its first cell. -/

namespace PointerList

variable {ι : Type}

/-- The cells from `head` on, up to the one without a next. -/
inductive Cells (next : ι → Option ι) : Option ι → List ι → Prop
  | nil : Cells next none []
  | cons {cell : ι} {cells : List ι} : Cells next (next cell) cells →
      Cells next (some cell) (cell :: cells)

/-- The list comes to an end. -/
def Ends (next : ι → Option ι) (head : Option ι) : Prop := ∃ cells, Cells next head cells

/-- The cell is on a list that comes to an end. -/
def On (next : ι → Option ι) (head : Option ι) (cell : ι) : Prop :=
  ∃ cells, Cells next head cells ∧ cell ∈ cells

variable {next other : ι → Option ι} {head : Option ι} {cell first : ι} {cells : List ι}

theorem ends_none : Ends next none := ⟨[], .nil⟩

theorem Ends.cons (ends : Ends next (next cell)) : Ends next (some cell) := by
  obtain ⟨cells, linked⟩ := ends
  exact ⟨cell :: cells, .cons linked⟩

theorem Ends.rest (ends : Ends next (some cell)) : Ends next (next cell) := by
  obtain ⟨_, linked⟩ := ends
  cases linked with
  | cons linked => exact ⟨_, linked⟩

theorem Cells.unique {cells' : List ι} (linked : Cells next head cells)
    (linked' : Cells next head cells') : cells = cells' := by
  induction linked generalizing cells' with
  | nil => cases linked'; rfl
  | cons _ ih =>
      cases linked' with
      | cons linked' => rw [ih linked']

theorem Cells.on_iff (linked : Cells next head cells) : On next head cell ↔ cell ∈ cells := by
  constructor
  · rintro ⟨cells', linked', member⟩
    rwa [linked.unique linked']
  · intro member
    exact ⟨cells, linked, member⟩

@[simp] theorem not_on_none : ¬ On next none cell := by
  rintro ⟨_, linked, member⟩
  cases linked
  cases member

theorem on_some (ends : Ends next (some first)) :
    On next (some first) cell ↔ cell = first ∨ On next (next first) cell := by
  obtain ⟨_, linked⟩ := ends
  rw [linked.on_iff]
  cases linked with
  | cons linked => rw [linked.on_iff, List.mem_cons]

theorem on_head (ends : Ends next (some first)) : On next (some first) first :=
  (on_some ends).mpr (Or.inl rfl)

/-- From each of its cells on, the list is the rest of the cells. -/
theorem Cells.suffix (linked : Cells next head cells) (member : cell ∈ cells) :
    ∃ rest, Cells next (next cell) rest ∧ rest.length < cells.length := by
  induction linked with
  | nil => cases member
  | cons linked ih =>
      rcases List.mem_cons.mp member with rfl | member
      · exact ⟨_, linked, Nat.lt_succ_self _⟩
      · obtain ⟨rest, linked, shorter⟩ := ih member
        exact ⟨rest, linked, Nat.lt_succ_of_lt shorter⟩

/-- A list that comes to an end has no cell twice. -/
theorem Cells.nodup (linked : Cells next head cells) : cells.Nodup := by
  induction linked with
  | nil => exact List.nodup_nil
  | cons linked ih =>
      refine List.nodup_cons.mpr ⟨fun again => ?_, ih⟩
      obtain ⟨rest, linked', shorter⟩ := linked.suffix again
      rw [linked'.unique linked] at shorter
      exact Nat.lt_irrefl _ shorter

/-- The first cell is on its list once. -/
theorem not_on_next (ends : Ends next (some cell)) : ¬ On next (next cell) cell := by
  obtain ⟨_, linked⟩ := ends
  have distinct := linked.nodup
  cases linked with
  | cons linked =>
      rw [linked.on_iff]
      exact (List.nodup_cons.mp distinct).1

section Frame

theorem Cells.frame (linked : Cells next head cells)
    (same : ∀ cell ∈ cells, other cell = next cell) : Cells other head cells := by
  induction linked with
  | nil => exact .nil
  | cons linked ih =>
      refine .cons ?_
      rw [same _ List.mem_cons_self]
      exact ih fun cell member => same cell (List.mem_cons_of_mem _ member)

/-- Writing a cell that is not on the list leaves the list as it is. -/
theorem Cells.update [DecidableEq ι] (linked : Cells next head cells) (off : ¬ On next head cell)
    (value : Option ι) : Cells (Function.update next cell value) head cells := by
  refine linked.frame fun other member => Function.update_of_ne ?_ _ _
  rintro rfl
  exact off (linked.on_iff.mpr member)

theorem Ends.update [DecidableEq ι] (ends : Ends next head) (off : ¬ On next head cell)
    (value : Option ι) : Ends (Function.update next cell value) head := by
  obtain ⟨cells, linked⟩ := ends
  exact ⟨cells, linked.update off value⟩

theorem on_update [DecidableEq ι] {written : ι} (ends : Ends next head)
    (off : ¬ On next head written) (value : Option ι) :
    On (Function.update next written value) head cell ↔ On next head cell := by
  obtain ⟨cells, linked⟩ := ends
  rw [linked.on_iff, (linked.update off value).on_iff]

end Frame

end PointerList
