import Mathlib.Data.Nat.Bitwise
import Sbf.HandlerStreams
import Sbf.KeyValue

set_option autoImplicit false

/-! The thread that a new stream is placed on. -/

namespace Sbf

open Octets

namespace TportConfig

variable {H S : Type}

/-- `SBF_MW_ALL_THREADS` -/
def allThreads : UInt64 := ~~~0

theorem type_plain : 0 ∉ ([116, 121, 112, 101] : Bytes) := by decide

/-- `type` -/
def typeKey : CString := ⟨[116, 121, 112, 101], type_plain⟩

/-- `sbfTport_create` with its properties: the first handler of the list that can be made.
`tryHandler` is `sbfTportTryHandler`. -/
def create (properties : KeyValue) (mask : UInt64) (numThreads : Nat)
    (topicWeight : Topic → UInt32) (tryHandler : CString → Option (HandlerTable H S × H)) :
    Option (TportConfig H S × Tport H S) :=
  match properties.get typeKey with
  | none => none
  | some types =>
      match (types.split comma).findSome? tryHandler with
      | none => none
      | some (table, handler) =>
          some (⟨table, numThreads, if mask = 0 then allThreads else mask, topicWeight⟩,
            .new handler)

theorem create_some {properties : KeyValue} {mask : UInt64} {numThreads : Nat}
    {topicWeight : Topic → UInt32} {tryHandler : CString → Option (HandlerTable H S × H)}
    {config : TportConfig H S} {tport : Tport H S}
    (made : create properties mask numThreads topicWeight tryHandler = some (config, tport)) :
    config.numThreads = numThreads ∧
      config.mThreads = if mask = 0 then allThreads else mask := by
  unfold create at made
  split at made
  · cases made
  · split at made
    · cases made
    · cases made
      exact ⟨rfl, rfl⟩

end TportConfig

/-- A bit of a thread mask. -/
def InMask (mask : UInt64) (i : Nat) : Prop := mask.toNat.testBit i = true

instance (mask : UInt64) (i : Nat) : Decidable (InMask mask i) :=
  inferInstanceAs (Decidable (mask.toNat.testBit i = true))

theorem threadMask_toNat {i : Nat} (small : i < 64) :
    ((1 : UInt64) <<< UInt64.ofNat i).toNat = 2 ^ i := by
  have all : ∀ k : Fin 64, ((1 : UInt64) <<< UInt64.ofNat k.val).toNat = 2 ^ k.val := by decide
  exact all ⟨i, small⟩

/-- The test that skips a thread. -/
theorem skips_iff (mask : UInt64) {i : Nat} (small : i < 64) :
    ~~~mask &&& (1 <<< UInt64.ofNat i) ≠ 0 ↔ ¬ InMask mask i := by
  have below := mask.toNat_lt
  have other : (~~~mask).toNat = 2 ^ 64 - (mask.toNat + 1) := by
    rw [UInt64.toNat_not]
    change 2 ^ 64 - 1 - mask.toNat = _
    omega
  rw [ne_eq, ← UInt64.toNat_inj, UInt64.toNat_and, threadMask_toNat small, Nat.and_two_pow, other,
    Nat.testBit_two_pow_sub_succ below, InMask]
  cases mask.toNat.testBit i <;> simp [small]

theorem allThreads_inMask {i : Nat} (small : i < 64) : InMask TportConfig.allThreads i := by
  change (2 ^ 64 - 1).testBit i = true
  rw [Nat.testBit_two_pow_sub_one]
  exact decide_eq_true small

/-- The thread of least weight among those of the mask, the first one among equals. -/
structure Lightest (mask : UInt64) (mWeights : Nat → UInt32) (numThreads thread : Nat) : Prop where
  below : thread < numThreads
  allowed : InMask mask thread
  least : ∀ other < numThreads, InMask mask other → mWeights thread ≤ mWeights other
  first : ∀ other < thread, InMask mask other → mWeights thread < mWeights other

namespace Tport

variable {mask : UInt64} {mWeights : Nat → UInt32} {i : Nat} {found : Option Nat} {weight : UInt32}

/-- What the scan has found below `i`: nothing yet, or the lightest thread. -/
def Scanned (mask : UInt64) (mWeights : Nat → UInt32) (i : Nat) (weight : UInt32) :
    Option Nat → Prop
  | none => weight = 0xffffffff ∧ ∀ other < i, ¬ InMask mask other
  | some thread => weight = mWeights thread ∧ Lightest mask mWeights i thread

theorem Scanned.skip (scanned : Scanned mask mWeights i weight found)
    (outside : ¬ InMask mask i) : Scanned mask mWeights (i + 1) weight found := by
  cases found with
  | none =>
      refine ⟨scanned.1, ?_⟩
      intro other below
      cases Nat.lt_succ_iff_lt_or_eq.mp below with
      | inl before => exact scanned.2 other before
      | inr here => exact here ▸ outside
  | some thread =>
      obtain ⟨same, lightest⟩ := scanned
      refine ⟨same, Nat.lt_succ_of_lt lightest.below, lightest.allowed, ?_, lightest.first⟩
      intro other below inside
      cases Nat.lt_succ_iff_lt_or_eq.mp below with
      | inl before => exact lightest.least other before inside
      | inr here => exact absurd (here ▸ inside) outside

theorem Scanned.lighter (scanned : Scanned mask mWeights i weight found) (inside : InMask mask i)
    (lighter : mWeights i < weight) : Scanned mask mWeights (i + 1) (mWeights i) (some i) := by
  have before : ∀ other < i, InMask mask other → mWeights i < mWeights other := by
    intro other below allowed
    cases found with
    | none => exact absurd allowed (scanned.2 other below)
    | some thread =>
        obtain ⟨rfl, lightest⟩ := scanned
        exact UInt32.lt_of_lt_of_le lighter (lightest.least other below allowed)
  refine ⟨rfl, Nat.lt_succ_self i, inside, ?_, before⟩
  intro other below allowed
  cases Nat.lt_succ_iff_lt_or_eq.mp below with
  | inl less => exact UInt32.le_of_lt (before other less allowed)
  | inr here => exact here ▸ UInt32.le_refl _

theorem Scanned.heavier (scanned : Scanned mask mWeights i weight found)
    (bounded : mWeights i < 0xffffffff) (heavier : ¬ mWeights i < weight) :
    Scanned mask mWeights (i + 1) weight found := by
  cases found with
  | none => exact absurd (scanned.1 ▸ bounded) heavier
  | some thread =>
      obtain ⟨rfl, lightest⟩ := scanned
      refine ⟨rfl, Nat.lt_succ_of_lt lightest.below, lightest.allowed, ?_, lightest.first⟩
      intro other below inside
      cases Nat.lt_succ_iff_lt_or_eq.mp below with
      | inl before => exact lightest.least other before inside
      | inr here => exact here ▸ UInt32.not_lt.mp heavier

/-- The loop from `i` on. -/
theorem Scanned.rest {left : Nat} (scanned : Scanned mask mWeights i weight found)
    (few : i + left ≤ 64) (bounded : ∀ other < i + left, mWeights other < 0xffffffff) :
    ∃ last, Scanned mask mWeights (i + left) last
      (nextThreadFrom mask mWeights left i found weight) := by
  induction left generalizing i found weight with
  | zero => exact ⟨weight, scanned⟩
  | succ left ih =>
      have next : i + (left + 1) = i + 1 + left := by omega
      rw [next] at few bounded ⊢
      have small : i < 64 := by omega
      rw [nextThreadFrom]
      split
      case isTrue skipped =>
          exact ih (scanned.skip ((skips_iff mask small).mp skipped)) few bounded
      case isFalse kept =>
          have inside : InMask mask i := not_not.mp (mt (skips_iff mask small).mpr kept)
          split
          case isTrue lighter => exact ih (scanned.lighter inside lighter) few bounded
          case isFalse heavier =>
              exact ih (scanned.heavier (bounded i (by omega)) heavier) few bounded

section Created

variable {H S : Type} {properties : KeyValue} {numThreads : Nat} {topicWeight : Topic → UInt32}
  {tryHandler : CString → Option (HandlerTable H S × H)} {config : TportConfig H S}
  {created : Tport H S}

/-- A stream of a transport gets the lightest thread of the mask just when the mask has a
thread of the middleware, or is zero, which stands for all. -/
theorem nextThread_lightest_iff
    (made : TportConfig.create properties mask numThreads topicWeight tryHandler =
      some (config, created))
    (some_ : 1 ≤ numThreads) (few : numThreads ≤ 64) (tport : Tport H S)
    (bounded : ∀ i < numThreads, tport.mWeights i < 0xffffffff) :
    (∃ thread, tport.nextThread config = some thread ∧
      Lightest config.mThreads tport.mWeights numThreads thread) ↔
      mask = 0 ∨ ∃ i < numThreads, InMask mask i := by
  obtain ⟨threads, masked⟩ := TportConfig.create_some made
  have reachable : (∃ i < numThreads, InMask config.mThreads i) ↔
      mask = 0 ∨ ∃ i < numThreads, InMask mask i := by
    rw [masked]
    by_cases zero : mask = 0
    · rw [if_pos zero]
      have all : InMask TportConfig.allThreads 0 := allThreads_inMask (by decide)
      exact iff_of_true ⟨0, some_, all⟩ (Or.inl zero)
    · rw [if_neg zero]
      exact ⟨Or.inr, fun either => either.resolve_left zero⟩
  rw [← reachable]
  have start : Scanned config.mThreads tport.mWeights 0 0xffffffff none :=
    ⟨rfl, fun other below => absurd below (Nat.not_lt_zero other)⟩
  have within : 0 + numThreads ≤ 64 := by rwa [Nat.zero_add]
  obtain ⟨last, scanned⟩ := start.rest within (by rwa [Nat.zero_add])
  rw [Nat.zero_add] at scanned
  rw [nextThread, threads]
  constructor
  · intro chosen
    obtain ⟨thread, _, lightest⟩ := chosen
    exact ⟨thread, lightest.below, lightest.allowed⟩
  · intro inside
    obtain ⟨i, below, allowed⟩ := inside
    cases result : nextThreadFrom config.mThreads tport.mWeights numThreads 0 none 0xffffffff with
    | none =>
        rw [result] at scanned
        exact absurd allowed (scanned.2 i below)
    | some thread =>
        rw [result] at scanned
        exact ⟨thread, rfl, scanned.2⟩

end Created

theorem udp_plain : 0 ∉ ([117, 100, 112] : Bytes) := by decide

/-- `udp` -/
def udpType : CString := ⟨[117, 100, 112], udp_plain⟩

/-- A UDP transport with `type=udp`, of a middleware with two threads. -/
def udpTwo (mask : UInt64) : Option (TportConfig UdpHandler UdpHandlerStream ×
    Tport UdpHandler UdpHandlerStream) :=
  TportConfig.create (KeyValue.put .empty TportConfig.typeKey udpType) mask 2 (fun _ => 1)
    fun type => if type = udpType then some (UdpHandler.table fun _ => 1, ⟨.empty⟩) else none

/-- The second thread alone may be used. -/
theorem nextThread_lightest_second :
    ∃ config created, udpTwo 2 = some (config, created) ∧
      ∃ thread, created.nextThread config = some thread ∧
        Lightest config.mThreads created.mWeights 2 thread := by
  have made : udpTwo 2 = some (⟨UdpHandler.table fun _ => 1, 2, 2, fun _ => 1⟩, .new ⟨.empty⟩) :=
    rfl
  refine ⟨_, _, made, ?_⟩
  have light : ∀ i < 2, (Tport.new ⟨.empty⟩ : Tport UdpHandler UdpHandlerStream).mWeights i <
      0xffffffff := fun _ _ => (by decide : (0 : UInt32) < 0xffffffff)
  have second : ∃ i < 2, InMask 2 i := ⟨1, by decide, by decide⟩
  exact (nextThread_lightest_iff made (by decide) (by decide) _ light).mpr (Or.inr second)

/-- A mask with a third thread only is accepted, and no thread is found. -/
theorem nextThread_none :
    ∃ config created, udpTwo 4 = some (config, created) ∧ created.nextThread config = none ∧
      ¬ ∃ thread, created.nextThread config = some thread ∧
        Lightest config.mThreads created.mWeights 2 thread := by
  have none_ : ∃ config created, udpTwo 4 = some (config, created) ∧
      created.nextThread config = none := ⟨_, _, rfl, by decide⟩
  obtain ⟨config, created, made, nothing⟩ := none_
  refine ⟨config, created, made, nothing, ?_⟩
  intro chosen
  obtain ⟨thread, found, _⟩ := chosen
  rw [nothing] at found
  cases found

end Tport

end Sbf
