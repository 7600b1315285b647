import Mathlib.Data.List.GetD

set_option autoImplicit false

/-! The bytes of a file that is written at any place: what lies between the end and a write
behind it reads as zeros. -/

namespace FileContent

/-- A write of `data` at `position`. -/
def overwrite (content : List UInt8) (position : Nat) (data : List UInt8) : List UInt8 :=
  content.take position ++ (List.replicate (position - content.length) 0 ++
    (data ++ content.drop (position + data.length)))

variable (content : List UInt8) (position : Nat) (data : List UInt8)

theorem overwrite_length :
    (overwrite content position data).length = max content.length (position + data.length) := by
  simp only [overwrite, List.length_append, List.length_take, List.length_replicate,
    List.length_drop]
  omega

/-- A byte of the file is the one written there last, or zero. -/
theorem overwrite_getD (i : Nat) :
    (overwrite content position data).getD i 0 =
      if position ≤ i ∧ i < position + data.length then data.getD (i - position) 0
      else content.getD i 0 := by
  have front : (content.take position).length = min position content.length := List.length_take
  simp only [overwrite, List.getD_eq_getElem?_getD]
  by_cases before : i < position
  · rw [if_neg (Nat.not_le.mpr before ∘ And.left)]
    by_cases inside : i < content.length
    · rw [List.getElem?_append_left (by omega), List.getElem?_take_of_lt before]
    · rw [List.getElem?_append_right (by omega),
        List.getElem?_append_left (by rw [List.length_replicate]; omega),
        List.getElem?_replicate_of_lt (by omega), List.getElem?_eq_none (Nat.not_lt.mp inside)]
      rfl
  · rw [List.getElem?_append_right (by omega),
      List.getElem?_append_right (by rw [List.length_replicate]; omega), List.length_replicate]
    have offset : i - (content.take position).length - (position - content.length) =
        i - position := by omega
    rw [offset]
    by_cases inside : i < position + data.length
    · rw [if_pos ⟨Nat.not_lt.mp before, inside⟩, List.getElem?_append_left (by omega)]
    · rw [if_neg (inside ∘ And.right), List.getElem?_append_right (by omega), List.getElem?_drop]
      congr 2
      omega

/-- A write inside of what is there, by the bytes up to its end. -/
theorem overwrite_take (inside : position + data.length ≤ content.length) :
    (overwrite content position data).take (position + data.length) =
      content.take position ++ data := by
  have front : (content.take position).length = position := by
    rw [List.length_take]
    omega
  have gap : position - content.length = 0 := by omega
  rw [overwrite, gap, List.replicate_zero, List.nil_append, ← List.append_assoc]
  apply List.take_left'
  rw [List.length_append, front]

end FileContent
