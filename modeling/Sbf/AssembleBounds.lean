import Mathlib.Algebra.Group.Nat.Defs
import Mathlib.Data.List.Induction
import Sbf.AssembleRecovery

set_option autoImplicit false

namespace Sbf

open Octets

namespace Tport

/-- The most bytes that fragments with numbers up to 255 can have. -/
def fragmentLimit : Nat := 255 * 65535

/-- A capacity that is 8192 times a power of two, and no larger than the first of these that has
room for every message. -/
def Capacity (allocated : Nat) : Prop := ∃ k ≤ 11, allocated = 8192 * 2 ^ k

theorem Capacity.positive {allocated : Nat} (capacity : Capacity allocated) : 0 < allocated := by
  obtain ⟨k, -, rfl⟩ := capacity
  exact Nat.mul_pos (by decide) (Nat.two_pow_pos k)

theorem Capacity.le {allocated : Nat} (capacity : Capacity allocated) : allocated ≤ 2 ^ 24 := by
  obtain ⟨k, few, rfl⟩ := capacity
  have power : 2 ^ k ≤ 2 ^ 11 := Nat.pow_le_pow_right (by decide) few
  omega

/-- A capacity that is too small for a message can be doubled. -/
theorem Capacity.double {allocated wanted : Nat} (capacity : Capacity allocated)
    (small : wanted ≤ fragmentLimit) (short : allocated < wanted) : Capacity (allocated * 2) := by
  obtain ⟨k, few, rfl⟩ := capacity
  have below : k ≠ 11 := by
    rintro rfl
    rw [fragmentLimit] at small
    omega
  exact ⟨k + 1, by omega, by rw [Nat.pow_succ, Nat.mul_assoc]⟩

theorem grow_capacity (fuel : Nat) {allocated wanted : Nat} (capacity : Capacity allocated)
    (small : wanted ≤ fragmentLimit) : Capacity (grow fuel allocated wanted) := by
  induction fuel generalizing allocated with
  | zero => exact capacity
  | succ fuel ih =>
      rw [grow]
      split
      · rename_i short
        exact ih (capacity.double small short)
      · exact capacity

end Tport

namespace Reassembly

open Tport

/-- The fields of a partial message are bounded by the number of its fragments. -/
structure Bounded (topic : Reassembly) : Prop where
  null : topic.mFragData = none ↔ topic.mFragNum = 0
  few : topic.mFragNum ≤ 255
  size : ∀ got, topic.mFragData = some got → topic.mFragSize = got.length
  small : ∀ got, topic.mFragData = some got → topic.mFragSize ≤ topic.mFragNum * 65535
  room : ∀ got, topic.mFragData = some got → topic.mFragSize ≤ topic.mFragAllocated
  capacity : ∀ got, topic.mFragData = some got → Capacity topic.mFragAllocated

theorem Idle.bounded {topic : Reassembly} (idle : topic.Idle) : topic.Bounded := by
  obtain ⟨number, data⟩ := idle
  have nothing : ∀ got, topic.mFragData ≠ some got := by
    intro got some_
    rw [data] at some_
    cases some_
  exact ⟨iff_of_true data number, by omega, fun got some_ => absurd some_ (nothing got),
    fun got some_ => absurd some_ (nothing got), fun got some_ => absurd some_ (nothing got),
    fun got some_ => absurd some_ (nothing got)⟩

variable {topic : Reassembly}

/-- A bounded state holds as many fragments as its number says. -/
theorem Bounded.holds (bounded : topic.Bounded) :
    ∃ got, topic.Holds topic.mFragNum got ∧ got.length ≤ topic.mFragNum * 65535 := by
  cases data : topic.mFragData with
  | none =>
      have none_ := bounded.null.mp data
      exact ⟨[], Or.inl ⟨none_, rfl, none_, data⟩, Nat.zero_le _⟩
  | some got =>
      have started : topic.mFragNum ≠ 0 := by
        intro zero
        rw [bounded.null.mpr zero] at data
        cases data
      have size := bounded.size got data
      refine ⟨got, Or.inr ⟨Nat.pos_of_ne_zero started, rfl, data, size, ?_, ?_⟩, ?_⟩
      · rw [← size]
        exact bounded.room got data
      · exact (bounded.capacity got data).positive
      · rw [← size]
        exact bounded.small got data

/-- What is stored and one more fragment are within the limit. -/
theorem Bounded.wanted (bounded : topic.Bounded) {got : Bytes} (data : topic.mFragData = some got)
    (hdr : TportHeader) (follows : hdr.mFragNum.toNat = topic.mFragNum + 1) :
    topic.mFragSize + hdr.mSize.toNat ≤ fragmentLimit := by
  have small := bounded.small got data
  have number := hdr.mFragNum.toNat_lt
  have more := hdr.mSize.toNat_lt
  rw [fragmentLimit]
  omega

/-- The capacity stays what it was, or is doubled. -/
theorem assemble_capacity (bounded : topic.Bounded) (hdr : TportHeader) (payload : Bytes) :
    ∀ got, (assemble topic hdr payload).2.mFragData = some got →
      Capacity (assemble topic hdr payload).2.mFragAllocated := by
  intro got stored
  by_cases follows : hdr.mFragNum.toNat = topic.mFragNum + 1
  · have accepted : ¬ hdr.mFragNum.toNat ≠ topic.mFragNum + 1 := fun differs => differs follows
    have more := hdr.mSize.toNat_lt
    cases data : topic.mFragData with
    | none =>
        have one : ¬ hdr.mFragNum ≠ 1 := by
          rw [bounded.null.mp data] at follows
          exact fun differs => differs (UInt8.toNat_inj.mp follows)
        simp only [assemble, if_neg accepted, data, if_neg one, assembleAppend, Nat.zero_add]
        have grown : Capacity (grow hdr.mSize.toNat 8192 hdr.mSize.toNat) :=
          grow_capacity _ ⟨0, Nat.zero_le _, rfl⟩ (by rw [fragmentLimit]; omega)
        split
        · exact grown
        · exact grown
    | some before =>
        simp only [assemble, if_neg accepted, data, assembleAppend]
        have grown := grow_capacity (topic.mFragSize + hdr.mSize.toNat)
          (bounded.capacity before data) (bounded.wanted data hdr follows)
        split
        · exact grown
        · exact grown
  · rw [assemble_other topic hdr payload follows] at stored
    cases stored

/-- Any fragment leaves a bounded state bounded: the number that continues a message is one of
eight bits. -/
theorem assemble_bounded (bounded : topic.Bounded) (fragment : Fragment) :
    (assemble topic fragment.hdr fragment.payload).2.Bounded := by
  by_cases follows : fragment.hdr.mFragNum.toNat = topic.mFragNum + 1
  · obtain ⟨before, holds, small⟩ := bounded.holds
    have step := assemble_next topic topic.mFragNum before fragment.hdr fragment.payload holds
      fragment.sized follows
    have capacity := assemble_capacity bounded fragment.hdr fragment.payload
    split at step
    · obtain ⟨after, ran, idle⟩ := step
      rw [ran]
      exact idle.bounded
    · obtain ⟨after, ran, started⟩ := step
      rw [ran] at capacity ⊢
      have number := fragment.hdr.mFragNum.toNat_lt
      have more := fragment.hdr.mSize.toNat_lt
      have size := started.size
      have total : (before ++ fragment.payload).length =
          before.length + fragment.hdr.mSize.toNat := by
        rw [List.length_append, fragment.sized]
      refine ⟨?_, ?_, ?_, ?_, ?_, capacity⟩
      · rw [started.data, started.number]
        exact iff_of_false (Option.some_ne_none _) (Nat.succ_ne_zero _)
      · rw [started.number]
        omega
      · intro got data
        rw [started.data] at data
        cases data
        exact size
      · intro got data
        rw [started.number, size, total]
        omega
      · intro got data
        rw [size]
        exact started.room
  · rw [assemble_other topic fragment.hdr fragment.payload follows]
    exact (assembleInvalid_idle topic).bounded

theorem feed_append (topic : Reassembly) (first second : List Fragment) :
    topic.feed (first ++ second) =
      ((topic.feed first).1 ++ ((topic.feed first).2.feed second).1,
        ((topic.feed first).2.feed second).2) := by
  induction first generalizing topic with
  | nil => rfl
  | cons fragment rest ih => rw [List.cons_append, feed, feed, ih, List.cons_append]

/-- The fragments behind `front` were accepted one after the other: nothing was stored before,
they are numbered from 1 on, and none is the last one of a message. -/
structure Collects (front accepted : List Fragment) : Prop where
  start : (zero.feed front).2.mFragData = none
  numbers : accepted.map (·.hdr.mFragNum.toNat) = List.range' 1 accepted.length
  unmarked : ∀ fragment ∈ accepted, fragment.hdr.isLastFragment = false

theorem Collects.none {front : List Fragment} (start : (zero.feed front).2.mFragData = none) :
    Collects front [] :=
  ⟨start, rfl, List.forall_mem_nil _⟩

theorem Collects.more {front accepted : List Fragment} (collects : Collects front accepted)
    {fragment : Fragment} (number : fragment.hdr.mFragNum.toNat = accepted.length + 1)
    (unmarked : fragment.hdr.isLastFragment = false) :
    Collects front (accepted ++ [fragment]) where
  start := collects.start
  numbers := by
    rw [List.map_append, collects.numbers, List.length_append, List.length_singleton,
      List.range'_concat, Nat.one_mul, Nat.add_comm 1, ← number]
    rfl
  unmarked := by
    intro other member
    cases List.mem_append.mp member with
    | inl before => exact collects.unmarked other before
    | inr here => rwa [List.mem_singleton.mp here]

/-- What is stored is made up of the fragments that were accepted since number 1. -/
theorem feed_collects (fragments : List Fragment) :
    ∃ front accepted, fragments = front ++ accepted ∧ Collects front accepted ∧
      (zero.feed fragments).2.Holds accepted.length (Fragment.message accepted) := by
  induction fragments using List.reverseRecOn with
  | nil => exact ⟨[], [], rfl, .none rfl, zero_idle.holds⟩
  | append_singleton before fragment ih =>
      obtain ⟨front, accepted, rfl, collects, holds⟩ := ih
      have fed : (zero.feed (front ++ accepted ++ [fragment])).2 =
          (assemble (zero.feed (front ++ accepted)).2 fragment.hdr fragment.payload).2 := by
        rw [feed_append]
        rfl
      have again : (zero.feed (front ++ accepted ++ [fragment])).2.Idle →
          ∃ front' accepted', front ++ accepted ++ [fragment] = front' ++ accepted' ∧
            Collects front' accepted' ∧
            (zero.feed (front ++ accepted ++ [fragment])).2.Holds accepted'.length
              (Fragment.message accepted') := by
        intro idle
        exact ⟨_, [], (List.append_nil _).symm, .none idle.2, idle.holds⟩
      by_cases follows : fragment.hdr.mFragNum.toNat = accepted.length + 1
      · have step := assemble_next _ accepted.length _ fragment.hdr fragment.payload holds
          fragment.sized follows
        split at step
        · obtain ⟨after, ran, idle⟩ := step
          apply again
          rwa [fed, ran]
        · rename_i unmarked
          obtain ⟨after, ran, started⟩ := step
          refine ⟨front, accepted ++ [fragment], List.append_assoc _ _ _,
            collects.more follows (Bool.not_eq_true _ ▸ unmarked), ?_⟩
          rw [fed, ran, List.length_append, List.length_singleton, Fragment.message,
            List.flatMap_append, List.flatMap_singleton]
          exact Or.inr started
      · apply again
        rw [fed, assemble_other _ fragment.hdr fragment.payload (by rwa [holds.number])]
        exact assembleInvalid_idle _

end Reassembly

end Sbf
