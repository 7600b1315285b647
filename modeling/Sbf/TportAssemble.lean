import Sbf.TportHeader

set_option autoImplicit false

namespace Sbf

open Octets

/-- The reassembly fields of `struct sbfTportTopicImpl`. `mFragSize` and
`mFragAllocated` keep their last values while `mFragData` is null. -/
structure Reassembly where
  mFragNum : Nat
  mFragSize : Nat
  mFragData : Option Bytes
  mFragAllocated : Nat
  deriving DecidableEq, Repr

/-- A new topic node is all zeros. -/
def Reassembly.zero : Reassembly := ⟨0, 0, none, 0⟩

namespace Tport

/-- The loop that doubles the allocation. -/
def grow : Nat → Nat → Nat → Nat
  | 0, allocated, _ => allocated
  | fuel + 1, allocated, wanted =>
      if allocated < wanted then grow fuel (allocated * 2) wanted else allocated

/-- With a positive allocation the loop is over after at most `wanted` rounds. -/
theorem grow_enough (fuel allocated wanted : Nat) (positive : 0 < allocated)
    (enough : wanted ≤ allocated + fuel) : wanted ≤ grow fuel allocated wanted := by
  induction fuel generalizing allocated with
  | zero => exact enough
  | succ fuel ih =>
      simp only [grow]
      split
      · exact ih (allocated * 2) (by omega) (by omega)
      · omega

theorem grow_ge (fuel allocated wanted : Nat) : allocated ≤ grow fuel allocated wanted := by
  induction fuel generalizing allocated with
  | zero => exact Nat.le_refl _
  | succ fuel ih =>
      simp only [grow]
      split
      · exact Nat.le_trans (by omega) (ih (allocated * 2))
      · exact Nat.le_refl _

/-- The `invalid` label: the partial message is freed, and so is lost the
fragment that did not fit. -/
def assembleInvalid (topic : Reassembly) : Option Bytes × Reassembly :=
  (none, { topic with mFragData := none, mFragNum := 0 })

/-- From the growth loop to the end: copy the payload behind what is there, and
hand the whole out with the last fragment. -/
def assembleAppend (topic : Reassembly) (data : Bytes) (hdr : TportHeader) (payload : Bytes) :
    Option Bytes × Reassembly :=
  let wanted := topic.mFragSize + hdr.mSize.toNat
  let allocated := grow wanted topic.mFragAllocated wanted
  let data := data.take topic.mFragSize ++ payload
  if hdr.isLastFragment then
    (some (data.take wanted), ⟨0, wanted, none, allocated⟩)
  else (none, ⟨topic.mFragNum, wanted, some data, allocated⟩)

/-- `sbfTport_assemble`; `payload` are the `mSize` bytes behind the topic. -/
def assemble (topic : Reassembly) (hdr : TportHeader) (payload : Bytes) :
    Option Bytes × Reassembly :=
  if hdr.mFragNum.toNat ≠ topic.mFragNum + 1 then assembleInvalid topic
  else
    match topic.mFragData with
    | none =>
        if hdr.mFragNum ≠ 1 then assembleInvalid topic
        else assembleAppend ⟨1, 0, some [], 8192⟩ [] hdr payload
    | some data =>
        assembleAppend { topic with mFragNum := hdr.mFragNum.toNat } data hdr payload

end Tport

/-- A fragment as a header and the bytes it announces. -/
structure Fragment where
  hdr : TportHeader
  payload : Bytes
  sized : payload.length = hdr.mSize.toNat
  deriving DecidableEq

namespace Reassembly

/-- Nothing is being put together. -/
def Idle (topic : Reassembly) : Prop := topic.mFragNum = 0 ∧ topic.mFragData = none

instance (topic : Reassembly) : Decidable topic.Idle := inferInstanceAs (Decidable (_ ∧ _))

/-- `count` fragments are in, and `got` are their bytes. -/
structure Partial (topic : Reassembly) (count : Nat) (got : Bytes) : Prop where
  started : 0 < count
  number : topic.mFragNum = count
  data : topic.mFragData = some got
  size : topic.mFragSize = got.length
  room : got.length ≤ topic.mFragAllocated
  allocated : 0 < topic.mFragAllocated

/-- Where a message stands after `count` of its fragments, none included. -/
def Holds (topic : Reassembly) (count : Nat) (got : Bytes) : Prop :=
  (count = 0 ∧ got = [] ∧ topic.Idle) ∨ topic.Partial count got

theorem zero_idle : zero.Idle := ⟨rfl, rfl⟩

theorem Idle.holds {topic : Reassembly} (idle : topic.Idle) : topic.Holds 0 [] :=
  Or.inl ⟨rfl, rfl, idle⟩

theorem Holds.number {topic : Reassembly} {count : Nat} {got : Bytes}
    (holds : topic.Holds count got) : topic.mFragNum = count := by
  rcases holds with ⟨rfl, _, idle⟩ | started
  · exact idle.1
  · exact started.number

theorem Holds.idle {topic : Reassembly} {got : Bytes} (holds : topic.Holds 0 got) :
    topic.Idle := by
  rcases holds with ⟨_, _, idle⟩ | started
  · exact idle
  · exact absurd started.started (by omega)

end Reassembly

namespace Tport

open Reassembly

theorem assembleInvalid_idle (topic : Reassembly) : (assembleInvalid topic).2.Idle := ⟨rfl, rfl⟩

/-- The fragment that continues a message is appended to it, and the last one
hands the message out and clears the state. -/
theorem assemble_next (topic : Reassembly) (count : Nat) (got : Bytes) (hdr : TportHeader)
    (payload : Bytes) (holds : topic.Holds count got)
    (sized : payload.length = hdr.mSize.toNat) (follows : hdr.mFragNum.toNat = count + 1) :
    if hdr.isLastFragment then
      ∃ topic', assemble topic hdr payload = (some (got ++ payload), topic') ∧ topic'.Idle
    else
      ∃ topic', assemble topic hdr payload = (none, topic') ∧
        topic'.Partial (count + 1) (got ++ payload) := by
  have accepted : ¬ hdr.mFragNum.toNat ≠ topic.mFragNum + 1 := by
    rw [holds.number, follows]
    exact fun differs => differs rfl
  obtain ⟨base, data, start, base_number, base_size, base_allocated, base_data⟩ :
      ∃ (base : Reassembly) (data : Bytes),
        assemble topic hdr payload = assembleAppend base data hdr payload ∧
        base.mFragNum = count + 1 ∧ base.mFragSize = got.length ∧ 0 < base.mFragAllocated ∧
        data.take base.mFragSize = got := by
    rcases holds with ⟨rfl, rfl, idle⟩ | started
    · have one : ¬ hdr.mFragNum ≠ 1 := by
        simp only [ne_eq, not_not]
        exact UInt8.toNat_inj.mp (by simpa using follows)
      refine ⟨⟨1, 0, some [], 8192⟩, [], ?_, rfl, rfl, by simp, rfl⟩
      simp only [assemble, if_neg accepted, idle.2, if_neg one]
    · refine ⟨{ topic with mFragNum := hdr.mFragNum.toNat }, got, ?_, follows, started.size,
        started.allocated, ?_⟩
      · simp only [assemble, if_neg accepted, started.data]
      · rw [started.size, List.take_length]
  have wanted : base.mFragSize + hdr.mSize.toNat = (got ++ payload).length := by
    rw [base_size, List.length_append, sized]
  rw [start]
  by_cases last : hdr.isLastFragment = true
  · simp only [last, ↓reduceIte, assembleAppend, base_data, wanted, List.take_length]
    exact ⟨_, rfl, rfl, rfl⟩
  · simp only [last, ↓reduceIte, assembleAppend, base_data, wanted, Bool.false_eq_true]
    exact ⟨_, rfl, by omega, base_number, rfl, rfl,
      grow_enough _ _ _ base_allocated (by omega),
      Nat.lt_of_lt_of_le base_allocated (grow_ge _ _ _)⟩

/-- A fragment with any other number clears the state and is dropped. -/
theorem assemble_other (topic : Reassembly) (hdr : TportHeader) (payload : Bytes)
    (differs : hdr.mFragNum.toNat ≠ topic.mFragNum + 1) :
    assemble topic hdr payload = assembleInvalid topic := by
  simp only [assemble, if_pos differs]

end Tport

/-- Feed fragments one after the other, keeping what each call returned. -/
def Reassembly.feed (topic : Reassembly) : List Fragment → List (Option Bytes) × Reassembly
  | [] => ([], topic)
  | fragment :: rest =>
      let step := Tport.assemble topic fragment.hdr fragment.payload
      let tail := step.2.feed rest
      (step.1 :: tail.1, tail.2)

end Sbf
