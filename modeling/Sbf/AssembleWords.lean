import Mathlib.Algebra.GroupWithZero.Nat
import Sbf.AssembleBounds
import Sbf.FileContent
import Sbf.StepSequences

set_option autoImplicit false

/-! `sbfTport_assemble` in the types of its fields and with its memory, as a step of the one in
numbers. -/

namespace Sbf

open Octets FileContent

/-- The reassembly fields of `struct sbfTportTopicImpl` in their own types. `mFragData` has all
the bytes of the allocation that it points to. -/
structure ReassemblyWords where
  mFragNum : UInt32
  mFragSize : UInt64
  mFragData : Option Bytes
  mFragAllocated : UInt64
  deriving DecidableEq

/-- A fragment, and what lies in the memory that is allocated for it. -/
structure Arrival where
  fragment : Fragment
  uninit : Nat → UInt8

namespace ReassemblyWords

/-- A new topic node is all zeros. -/
def zero : ReassemblyWords := ⟨0, 0, none, 0⟩

/-- `SIZE_MAX` -/
def sizeMax : UInt64 := 0xffffffffffffffff

section Memory

variable (uninit : Nat → UInt8)

/-- `xmalloc`. `SBF_FATAL` ends the process as an assertion does. -/
def xmalloc (size : UInt64) : Except Fault Bytes :=
  if size = 0 then .error .assertion
  else .ok ((List.range size.toNat).map uninit)

/-- `xrealloc` -/
def xrealloc (data : Bytes) (nmemb size : UInt64) : Except Fault Bytes :=
  let newsize := nmemb * size
  if newsize = 0 then .error .assertion
  else if sizeMax / nmemb < size then .error .assertion
  else
    .ok (data.take newsize.toNat ++ (List.range (newsize.toNat - data.length)).map fun i =>
      uninit (data.length + i))

/-- `memcpy` into an allocation, all of which has to be inside. -/
def memcpy (data : Bytes) (offset : Nat) (payload : Bytes) : Except Fault Bytes :=
  if offset + payload.length ≤ data.length then .ok (overwrite data offset payload)
  else .error .outside

/-- The loop that doubles the allocation. `xrealloc` refuses to go beyond `SIZE_MAX`, so there
are never more rounds than bits in a word. -/
def growLoop : Nat → Bytes → UInt64 → UInt64 → Except Fault (Bytes × UInt64)
  | 0, _, _, _ => .error .endless
  | fuel + 1, mFragData, mFragAllocated, wanted =>
      if mFragAllocated < wanted then do
        let mFragData ← xrealloc uninit mFragData 2 mFragAllocated
        growLoop fuel mFragData (mFragAllocated * 2) wanted
      else .ok (mFragData, mFragAllocated)

/-- The `invalid` label. -/
def assembleInvalid (topic : ReassemblyWords) : Option Bytes × ReassemblyWords :=
  (none, { topic with mFragData := none, mFragNum := 0 })

/-- From the loop to the end, with `mFragData` beside the other fields. -/
def assembleAppend (topic : ReassemblyWords) (mFragData : Bytes) (hdr : TportHeader)
    (payload : Bytes) : Except Fault (Option Bytes × ReassemblyWords) := do
  let (mFragData, mFragAllocated) ← growLoop uninit 65 mFragData topic.mFragAllocated
    (topic.mFragSize + hdr.mSize.toUInt64)
  let mFragData ← memcpy mFragData topic.mFragSize.toNat payload
  let mFragSize := topic.mFragSize + hdr.mSize.toUInt64
  if hdr.isLastFragment then
    return (some (mFragData.take mFragSize.toNat), ⟨0, mFragSize, none, mFragAllocated⟩)
  else return (none, ⟨topic.mFragNum, mFragSize, some mFragData, mFragAllocated⟩)

/-- `sbfTport_assemble`; `payload` are the `mSize` bytes behind the topic. -/
def assemble (topic : ReassemblyWords) (hdr : TportHeader) (payload : Bytes) :
    Except Fault (Option Bytes × ReassemblyWords) :=
  if hdr.mFragNum.toUInt32 ≠ topic.mFragNum + 1 then .ok (assembleInvalid topic)
  else
    match topic.mFragData with
    | none =>
        if hdr.mFragNum ≠ 1 then .ok (assembleInvalid topic)
        else do
          let mFragData ← xmalloc uninit 8192
          assembleAppend uninit ⟨1, 0, some mFragData, 8192⟩ mFragData hdr payload
    | some mFragData =>
        assembleAppend uninit { topic with mFragNum := hdr.mFragNum.toUInt32 } mFragData hdr payload

end Memory

/-- One call, with what it returns. -/
def receive (arrival : Arrival) : Step Fault ReassemblyWords (Option Bytes) := fun topic => do
  let (returned, topic) ← assemble arrival.uninit topic arrival.fragment.hdr
    arrival.fragment.payload
  return (topic, [returned])

/-- Any fragments, one after the other. -/
def feed (arrivals : List Arrival) : Step Fault ReassemblyWords (Option Bytes) :=
  Step.all (arrivals.map receive)

/-- The fields as numbers, and of the memory what has been written. -/
def view (topic : ReassemblyWords) : Reassembly where
  mFragNum := topic.mFragNum.toNat
  mFragSize := topic.mFragSize.toNat
  mFragData := topic.mFragData.map (·.take topic.mFragSize.toNat)
  mFragAllocated := topic.mFragAllocated.toNat

/-- `mFragAllocated` is the size of the allocation. -/
def Allocated (topic : ReassemblyWords) : Prop :=
  ∀ mFragData, topic.mFragData = some mFragData →
    mFragData.length = topic.mFragAllocated.toNat

open Tport (Capacity fragmentLimit grow)

section Grow

variable (uninit : Nat → UInt8) {data : Bytes} {allocated : UInt64}

theorem xrealloc_double (whole : data.length = allocated.toNat)
    (capacity : Capacity allocated.toNat) :
    ∃ grown, xrealloc uninit data 2 allocated = .ok grown ∧ data <+: grown ∧
      grown.length = allocated.toNat * 2 := by
  have positive := capacity.positive
  have small := capacity.le
  have doubled : (2 * allocated).toNat = allocated.toNat * 2 := by
    rw [UInt64.toNat_mul]
    change 2 * allocated.toNat % 2 ^ 64 = _
    omega
  have nonzero : 2 * allocated ≠ 0 := by
    intro zero
    rw [zero] at doubled
    change 0 = _ at doubled
    omega
  have fits : ¬ sizeMax / 2 < allocated := by
    rw [UInt64.lt_iff_toNat_lt, UInt64.toNat_div]
    change ¬ (2 ^ 64 - 1) / 2 < _
    omega
  have all : data.take (allocated.toNat * 2) = data := List.take_of_length_le (by omega)
  refine ⟨_, by rw [xrealloc, if_neg nonzero, if_neg fits], ?_, ?_⟩
  · rw [doubled, all]
    exact List.prefix_append _ _
  · rw [doubled, all, List.length_append, List.length_map, List.length_range]
    omega

/-- The loop ends with room for what is wanted, as the one in numbers does. -/
theorem growLoop_grow (wanted : UInt64) (fuel rounds : Nat) (whole : data.length = allocated.toNat)
    (capacity : Capacity allocated.toNat) (small : wanted.toNat ≤ fragmentLimit)
    (deep : 2 ^ 24 < allocated.toNat * 2 ^ fuel)
    (enough : wanted.toNat ≤ allocated.toNat + rounds) :
    ∃ grown allocated', growLoop uninit fuel data allocated wanted = .ok (grown, allocated') ∧
      allocated'.toNat = grow rounds allocated.toNat wanted.toNat ∧ data <+: grown ∧
      grown.length = allocated'.toNat := by
  induction fuel generalizing data allocated rounds with
  | zero =>
      have most := capacity.le
      omega
  | succ fuel ih =>
      have positive := capacity.positive
      by_cases short : allocated.toNat < wanted.toNat
      · have doubled : (allocated * 2).toNat = allocated.toNat * 2 := by
          have most := capacity.le
          rw [UInt64.toNat_mul]
          change allocated.toNat * 2 % 2 ^ 64 = _
          omega
        obtain ⟨larger, ran, front, length⟩ := xrealloc_double uninit whole capacity
        obtain ⟨rounds, rfl⟩ := Nat.exists_eq_succ_of_ne_zero (by omega : rounds ≠ 0)
        have capacity' : Capacity (allocated * 2).toNat := by
          rw [doubled]
          exact capacity.double small short
        have deep' : 2 ^ 24 < (allocated * 2).toNat * 2 ^ fuel := by
          rwa [doubled, Nat.mul_assoc, ← Nat.pow_succ']
        obtain ⟨grown, allocated', ran', same, front', length'⟩ :=
          ih rounds (length.trans doubled.symm) capacity' deep' (by omega)
        refine ⟨grown, allocated', ?_, ?_, front.trans front', length'⟩
        · rw [growLoop, if_pos (UInt64.lt_iff_toNat_lt.mpr short), ran]
          exact ran'
        · rw [same, doubled, Nat.succ_eq_add_one, grow, if_pos short]
      · refine ⟨data, allocated, ?_, ?_, List.prefix_rfl, whole⟩
        · rw [growLoop, if_neg (mt UInt64.lt_iff_toNat_lt.mp short)]
        · cases rounds with
          | zero => rfl
          | succ rounds => rw [grow, if_neg short]

end Grow

section Assemble

variable (uninit : Nat → UInt8) {topic : ReassemblyWords}

theorem wanted_toNat (hdr : TportHeader)
    (small : topic.mFragSize.toNat + hdr.mSize.toNat ≤ fragmentLimit) :
    (topic.mFragSize + hdr.mSize.toUInt64).toNat = topic.mFragSize.toNat + hdr.mSize.toNat := by
  rw [fragmentLimit] at small
  rw [UInt64.toNat_add, UInt16.toNat_toUInt64]
  omega

/-- The loop ends, the copy is inside, and the payload is behind what was there. -/
theorem assembleAppend_ok {data : Bytes} (whole : data.length = topic.mFragAllocated.toNat)
    (capacity : Capacity topic.mFragAllocated.toNat)
    (room : topic.mFragSize.toNat ≤ topic.mFragAllocated.toNat) (fragment : Fragment)
    (small : topic.mFragSize.toNat + fragment.hdr.mSize.toNat ≤ fragmentLimit) :
    ∃ stored mFragAllocated,
      assembleAppend uninit topic data fragment.hdr fragment.payload =
        .ok (if fragment.hdr.isLastFragment then
            (some (data.take topic.mFragSize.toNat ++ fragment.payload),
              ⟨0, topic.mFragSize + fragment.hdr.mSize.toUInt64, none, mFragAllocated⟩)
          else
            (none, ⟨topic.mFragNum, topic.mFragSize + fragment.hdr.mSize.toUInt64, some stored,
              mFragAllocated⟩)) ∧
      stored.take (topic.mFragSize.toNat + fragment.hdr.mSize.toNat) =
        data.take topic.mFragSize.toNat ++ fragment.payload ∧
      stored.length = mFragAllocated.toNat ∧
      mFragAllocated.toNat = grow (topic.mFragSize.toNat + fragment.hdr.mSize.toNat)
        topic.mFragAllocated.toNat (topic.mFragSize.toNat + fragment.hdr.mSize.toNat) := by
  have wanted := wanted_toNat fragment.hdr small
  have positive := capacity.positive
  obtain ⟨grown, allocated, ran, same, front, length⟩ :=
    growLoop_grow uninit (topic.mFragSize + fragment.hdr.mSize.toUInt64) 65
      (topic.mFragSize.toNat + fragment.hdr.mSize.toNat) whole capacity (by rwa [wanted])
      (by omega) (by omega)
  rw [wanted] at same
  have enough : topic.mFragSize.toNat + fragment.hdr.mSize.toNat ≤ allocated.toNat := by
    rw [same]
    exact Tport.grow_enough _ _ _ positive (by omega)
  have inside : topic.mFragSize.toNat + fragment.payload.length ≤ grown.length := by
    rw [fragment.sized, length]
    exact enough
  have kept : grown.take topic.mFragSize.toNat = data.take topic.mFragSize.toNat := by
    obtain ⟨more, rfl⟩ := front
    rw [List.take_append_of_le_length (by omega)]
  have copied := overwrite_take grown topic.mFragSize.toNat fragment.payload inside
  rw [kept, fragment.sized] at copied
  refine ⟨overwrite grown topic.mFragSize.toNat fragment.payload, allocated, ?_, copied, ?_, same⟩
  · rw [assembleAppend, ran]
    simp only [bind, Except.bind, memcpy, if_pos inside, pure, Except.pure, wanted, copied]
    split
    · rfl
    · rfl
  · rw [overwrite_length, Nat.max_eq_left inside, length]

/-- As far as they are written, the words are what the numbers are. -/
theorem assembleAppend_view {data : Bytes} (whole : data.length = topic.mFragAllocated.toNat)
    (capacity : Capacity topic.mFragAllocated.toNat)
    (room : topic.mFragSize.toNat ≤ topic.mFragAllocated.toNat) (fragment : Fragment)
    (small : topic.mFragSize.toNat + fragment.hdr.mSize.toNat ≤ fragmentLimit) :
    ∃ next, assembleAppend uninit topic data fragment.hdr fragment.payload =
        .ok ((Tport.assembleAppend topic.view (data.take topic.mFragSize.toNat) fragment.hdr
          fragment.payload).1, next) ∧
      next.view = (Tport.assembleAppend topic.view (data.take topic.mFragSize.toNat) fragment.hdr
        fragment.payload).2 ∧ next.Allocated := by
  obtain ⟨stored, allocated, ran, written, length, same⟩ :=
    assembleAppend_ok uninit whole capacity room fragment small
  have wanted := wanted_toNat fragment.hdr small
  have short : (data.take topic.mFragSize.toNat ++ fragment.payload).length ≤
      topic.mFragSize.toNat + fragment.hdr.mSize.toNat := by
    rw [List.length_append, List.length_take, fragment.sized]
    omega
  rw [ran]
  simp only [Tport.assembleAppend, view, List.take_take, Nat.min_self, ← same,
    List.take_of_length_le short]
  by_cases last : fragment.hdr.isLastFragment = true
  · simp only [if_pos last, Except.ok.injEq, Prod.mk.injEq]
    refine ⟨_, ⟨trivial, rfl⟩, ?_, ?_⟩
    · simp only [wanted]
      rfl
    · intro other none_
      cases none_
  · simp only [if_neg last, Except.ok.injEq, Prod.mk.injEq]
    refine ⟨_, ⟨trivial, rfl⟩, ?_, ?_⟩
    · simp only [wanted, Option.map_some, written]
    · intro other some_
      cases some_
      exact length

/-- A message begins in new memory. -/
theorem assemble_first (fragment : Fragment) (data : topic.mFragData = none)
    (number : topic.mFragNum = 0) (one : fragment.hdr.mFragNum = 1) :
    ∃ next, assemble uninit topic fragment.hdr fragment.payload =
        .ok ((Tport.assemble topic.view fragment.hdr fragment.payload).1, next) ∧
      next.view = (Tport.assemble topic.view fragment.hdr fragment.payload).2 ∧
      next.Allocated := by
  let fresh := (List.range (8192 : UInt64).toNat).map uninit
  let base : ReassemblyWords := ⟨1, 0, some fresh, 8192⟩
  have whole : fresh.length = base.mFragAllocated.toNat := by
    rw [List.length_map, List.length_range]
  have small : base.mFragSize.toNat + fragment.hdr.mSize.toNat ≤ fragmentLimit := by
    have more := fragment.hdr.mSize.toNat_lt
    change 0 + _ ≤ _
    rw [fragmentLimit]
    omega
  have step := assembleAppend_view uninit whole ⟨0, Nat.zero_le _, rfl⟩ (Nat.zero_le _) fragment
    small
  have ran : assemble uninit topic fragment.hdr fragment.payload =
      assembleAppend uninit base fresh fragment.hdr fragment.payload := by
    rw [assemble, number, one, data]
    rfl
  have ran' : Tport.assemble topic.view fragment.hdr fragment.payload =
      Tport.assembleAppend base.view (fresh.take base.mFragSize.toNat) fragment.hdr
        fragment.payload := by
    rw [Tport.assemble, view, number, one, data]
    rfl
  rw [ran, ran']
  exact step

/-- And goes on in the memory that is there. -/
theorem assemble_next (allocated : topic.Allocated) (bounded : topic.view.Bounded)
    (fragment : Fragment) {stored : Bytes} (data : topic.mFragData = some stored)
    (follows : fragment.hdr.mFragNum.toUInt32 = topic.mFragNum + 1)
    (follows' : fragment.hdr.mFragNum.toNat = topic.view.mFragNum + 1) :
    ∃ next, assemble uninit topic fragment.hdr fragment.payload =
        .ok ((Tport.assemble topic.view fragment.hdr fragment.payload).1, next) ∧
      next.view = (Tport.assemble topic.view fragment.hdr fragment.payload).2 ∧
      next.Allocated := by
  have known : topic.view.mFragData = some (stored.take topic.mFragSize.toNat) := by
    rw [view, data, Option.map_some]
  let base : ReassemblyWords := { topic with mFragNum := fragment.hdr.mFragNum.toUInt32 }
  have whole : stored.length = base.mFragAllocated.toNat := allocated stored data
  have step := assembleAppend_view uninit whole (bounded.capacity _ known) (bounded.room _ known)
    fragment (bounded.wanted known fragment.hdr follows')
  have ran : assemble uninit topic fragment.hdr fragment.payload =
      assembleAppend uninit base stored fragment.hdr fragment.payload := by
    rw [assemble, if_neg (not_not_intro follows), data]
    dsimp only
    rw [← data]
  have ran' : Tport.assemble topic.view fragment.hdr fragment.payload =
      Tport.assembleAppend base.view (stored.take base.mFragSize.toNat) fragment.hdr
        fragment.payload := by
    rw [Tport.assemble, if_neg (not_not_intro follows'), known]
    rfl
  rw [ran, ran']
  exact step

/-- The words do what the numbers do, as long as these are bounded. -/
theorem assemble_view (allocated : topic.Allocated) (bounded : topic.view.Bounded)
    (fragment : Fragment) :
    ∃ next, assemble uninit topic fragment.hdr fragment.payload =
        .ok ((Tport.assemble topic.view fragment.hdr fragment.payload).1, next) ∧
      next.view = (Tport.assemble topic.view fragment.hdr fragment.payload).2 ∧
      next.Allocated := by
  -- the stored number was one of eight bits, so the sum does not wrap
  have number : (topic.mFragNum + 1).toNat = topic.view.mFragNum + 1 := by
    have few := bounded.few
    rw [UInt32.toNat_add]
    change (topic.view.mFragNum + 1) % 2 ^ 32 = _
    omega
  have follows_iff : fragment.hdr.mFragNum.toUInt32 = topic.mFragNum + 1 ↔
      fragment.hdr.mFragNum.toNat = topic.view.mFragNum + 1 := by
    rw [← UInt32.toNat_inj, number, UInt8.toNat_toUInt32]
  by_cases follows : fragment.hdr.mFragNum.toUInt32 = topic.mFragNum + 1
  · have follows' := follows_iff.mp follows
    cases data : topic.mFragData with
    | none =>
        have null : topic.view.mFragNum = 0 := by
          apply bounded.null.mp
          rw [view, data, Option.map_none]
        rw [null] at follows'
        exact assemble_first uninit fragment data (UInt32.toNat_inj.mp null)
          (UInt8.toNat_inj.mp follows')
    | some stored => exact assemble_next uninit allocated bounded fragment data follows follows'
  · have other := Tport.assemble_other topic.view fragment.hdr fragment.payload
      (mt follows_iff.mpr follows)
    rw [other]
    refine ⟨(assembleInvalid topic).2, by rw [assemble, if_pos follows]; rfl, rfl, ?_⟩
    intro data none_
    cases none_

end Assemble

/-- The call in numbers, as a step. -/
def received (fragment : Fragment) (topic : Reassembly) : Reassembly × List (Option Bytes) :=
  let step := Tport.assemble topic fragment.hdr fragment.payload
  (step.2, [step.1])

/-- Words that are bounded numbers, with the memory that they say. -/
def Represents (words : ReassemblyWords) (topic : Reassembly) : Prop :=
  words.view = topic ∧ words.Allocated ∧ topic.Bounded

theorem receive_simulates (arrival : Arrival) :
    Step.Simulates Represents Eq (receive arrival) (received arrival.fragment) := by
  rintro words topic ⟨rfl, allocated, bounded⟩
  obtain ⟨next, ran, same, allocated'⟩ :=
    assemble_view arrival.uninit allocated bounded arrival.fragment
  have bounded' := Reassembly.assemble_bounded bounded arrival.fragment
  refine ⟨next, [(Tport.assemble words.view arrival.fragment.hdr arrival.fragment.payload).1], ?_,
    ⟨same, allocated', bounded'⟩, .cons rfl .nil⟩
  rw [receive, ran]
  rfl

theorem runSpec_received (fragments : List Fragment) (topic : Reassembly) :
    Step.runSpec (fragments.map received) topic =
      ((topic.feed fragments).2, (topic.feed fragments).1) := by
  induction fragments generalizing topic with
  | nil => rfl
  | cons fragment rest ih =>
      rw [List.map_cons, Step.runSpec, ih]
      rfl

/-- The calls never fail, and do what they do in numbers. -/
theorem feed_represents (arrivals : List Arrival) :
    ∃ topic returned, feed arrivals zero = .ok (topic, returned) ∧
      Represents topic (Reassembly.zero.feed (arrivals.map Arrival.fragment)).2 ∧
      returned = (Reassembly.zero.feed (arrivals.map Arrival.fragment)).1 := by
  have start : Represents zero Reassembly.zero :=
    ⟨rfl, fun _ none_ => (nomatch none_), Reassembly.zero_idle.bounded⟩
  obtain ⟨topic, returned, ran, represents, same⟩ :=
    Step.all_simulates receive (received ∘ Arrival.fragment) arrivals
      (fun arrival _ => receive_simulates arrival) zero Reassembly.zero start
  rw [← List.map_map, runSpec_received] at represents same
  exact ⟨topic, returned, ran, represents, List.forall₂_eq_eq_eq ▸ same⟩

/-- The arrivals behind `front` were accepted one after the other: `mFragData` was null before,
they are numbered from 1 on, and none is the last one of a message. -/
structure Since (front accepted : List Arrival) : Prop where
  start : ∃ topic returned, feed front zero = .ok (topic, returned) ∧ topic.mFragData = none
  numbers : accepted.map (·.fragment.hdr.mFragNum.toNat) = List.range' 1 accepted.length
  unmarked : ∀ arrival ∈ accepted, arrival.fragment.hdr.isLastFragment = false

/-- What the fields say of the arrivals that are stored. -/
structure Stores (topic : ReassemblyWords) (mFragData : Bytes) (accepted : List Arrival) :
    Prop where
  number : topic.mFragNum.toNat = accepted.length
  few : topic.mFragNum.toNat ≤ 255
  sum : topic.mFragSize.toNat = (accepted.map (·.fragment.hdr.mSize.toNat)).sum
  bytes : mFragData.take topic.mFragSize.toNat = accepted.flatMap (·.fragment.payload)
  room : topic.mFragSize ≤ topic.mFragAllocated
  small : topic.mFragSize.toNat ≤ 255 * 65535
  capacity : ∃ k, topic.mFragAllocated.toNat = 8192 * 2 ^ k
  allocation : mFragData.length = topic.mFragAllocated.toNat

theorem message_length (accepted : List Arrival) :
    (Fragment.message (accepted.map Arrival.fragment)).length =
      (accepted.map (·.fragment.hdr.mSize.toNat)).sum := by
  rw [Fragment.message, List.length_flatMap, List.map_map]
  congr 1
  apply List.map_congr_left
  intro arrival _
  exact arrival.fragment.sized

theorem view_null {topic : ReassemblyWords} :
    topic.view.mFragData = none ↔ topic.mFragData = none :=
  Option.map_eq_none_iff

/-- A partial message in numbers is one in words. -/
theorem stores_of_holds {topic : ReassemblyWords} {mFragData : Bytes} {accepted : List Arrival}
    (data : topic.mFragData = some mFragData) (allocated : topic.Allocated)
    (bounded : topic.view.Bounded)
    (holds : topic.view.Holds (accepted.map Arrival.fragment).length
      (Fragment.message (accepted.map Arrival.fragment))) :
    topic.Stores mFragData accepted := by
  have known : topic.view.mFragData = some (mFragData.take topic.mFragSize.toNat) := by
    rw [view, data, Option.map_some]
  have started : topic.view.Partial (accepted.map Arrival.fragment).length
      (Fragment.message (accepted.map Arrival.fragment)) := by
    cases holds with
    | inl nothing =>
        have null := nothing.2.2.2
        rw [known] at null
        cases null
    | inr started => exact started
  have few := bounded.few
  have small := bounded.small _ known
  obtain ⟨k, -, power⟩ := bounded.capacity _ known
  refine ⟨?_, few, ?_, ?_, UInt64.le_iff_toNat_le.mpr (bounded.room _ known), ?_, ⟨k, power⟩,
    allocated mFragData data⟩
  · rw [← List.length_map Arrival.fragment]
    exact started.number
  · rw [← message_length]
    exact started.size
  · have written := started.data
    rw [known, Option.some.injEq, Fragment.message, List.flatMap_map] at written
    exact written
  · have limit : topic.view.mFragNum * 65535 ≤ 255 * 65535 := Nat.mul_le_mul_right _ few
    exact Nat.le_trans small limit

/-- Whatever fragments arrive, no call writes outside of the allocation or stays in the loop, and
the fields are consistent and bounded. -/
theorem feed_consistent (arrivals : List Arrival) :
    ∃ topic returned, feed arrivals zero = .ok (topic, returned) ∧
      (topic.mFragData = none ↔ topic.mFragNum = 0) ∧
      ∀ mFragData, topic.mFragData = some mFragData →
        ∃ front accepted, arrivals = front ++ accepted ∧ Since front accepted ∧
          topic.Stores mFragData accepted := by
  obtain ⟨topic, returned, ran, ⟨same, allocated, bounded⟩, -⟩ := feed_represents arrivals
  rw [← same] at bounded
  refine ⟨topic, returned, ran, ?_, ?_⟩
  · rw [← view_null, bounded.null, ← UInt32.toNat_inj]
    rfl
  · intro mFragData data
    obtain ⟨front', accepted', split, collects, holds⟩ :=
      Reassembly.feed_collects (arrivals.map Arrival.fragment)
    obtain ⟨front, accepted, rfl, rfl, rfl⟩ := List.map_eq_append_iff.mp split
    rw [← same] at holds
    refine ⟨front, accepted, rfl, ⟨?_, ?_, ?_⟩, stores_of_holds data allocated bounded holds⟩
    · obtain ⟨before, returned', ran', ⟨same', -, -⟩, -⟩ := feed_represents front
      refine ⟨before, returned', ran', view_null.mp ?_⟩
      rw [same']
      exact collects.start
    · have numbers := collects.numbers
      rwa [List.map_map, List.length_map] at numbers
    · intro arrival member
      exact collects.unmarked arrival.fragment (List.mem_map_of_mem member)

end ReassemblyWords

end Sbf
