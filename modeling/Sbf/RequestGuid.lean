import Mathlib.Algebra.Group.Nat.Defs
import Mathlib.Data.List.Lex
import Mathlib.Order.Nat
import Sbf.Octets

set_option autoImplicit false

namespace Octets

/-- The low `count` bytes of a number, the lowest first. -/
def numberBytes : Nat → Nat → Bytes
  | 0, _ => []
  | count + 1, n => UInt8.ofNat (n % 256) :: numberBytes count (n / 256)

def number : Bytes → Nat
  | [] => 0
  | low :: high => low.toNat + 256 * number high

@[simp] theorem numberBytes_length (count n : Nat) : (numberBytes count n).length = count := by
  induction count generalizing n with
  | zero => rfl
  | succ count ih => rw [numberBytes, List.length_cons, ih]

theorem number_numberBytes (count n : Nat) (fits : n < 256 ^ count) :
    number (numberBytes count n) = n := by
  induction count generalizing n with
  | zero =>
      have none_left : n = 0 := by simpa using fits
      exact none_left.symm
  | succ count ih =>
      have low : (UInt8.ofNat (n % 256)).toNat = n % 256 := by
        rw [UInt8.toNat_ofNat']
        omega
      rw [numberBytes, number, low, ih (n / 256) (by rw [Nat.pow_succ] at fits; omega)]
      omega

/-- A 64-bit word in the host order of a little-endian machine. -/
def longBytes (long : UInt64) : Bytes := numberBytes 8 long.toNat

def long (bytes : Bytes) : UInt64 := UInt64.ofNat (number bytes)

@[simp] theorem longBytes_length (w : UInt64) : (longBytes w).length = 8 := numberBytes_length 8 _

theorem long_longBytes (w : UInt64) : long (longBytes w) = w := by
  rw [long, longBytes, number_numberBytes 8 _ w.toNat_lt, UInt64.ofNat_toNat]

end Octets

namespace Sbf

open Octets

/-- A `sbfGuid`: `mParts[0]` to `mParts[2]`, which `sbfGuid_new` makes once, and `mParts[3]`. -/
structure Guid where
  fixed : UInt64 × UInt64 × UInt64
  counter : UInt64
deriving Repr

namespace Guid

/-- `sbfGuid_increment` -/
def increment (guid : Guid) (by_ : UInt64) : Guid := { guid with counter := guid.counter + by_ }

/-- The memory of a GUID, as `sbfGuid_copy` copies it. -/
def bytes (guid : Guid) : Bytes :=
  longBytes guid.fixed.1 ++ (longBytes guid.fixed.2.1 ++
    (longBytes guid.fixed.2.2 ++ longBytes guid.counter))

def ofBytes (bytes : Bytes) : Guid where
  fixed := (long (bytes.take 8), long ((bytes.drop 8).take 8), long ((bytes.drop 16).take 8))
  counter := long ((bytes.drop 24).take 8)

@[simp] theorem bytes_length (guid : Guid) : guid.bytes.length = 32 := by
  simp [bytes]

/-- What is copied out of a message is what was copied in. -/
theorem ofBytes_bytes (guid : Guid) (rest : Bytes) : ofBytes (guid.bytes ++ rest) = guid := by
  obtain ⟨⟨first, second, third⟩, counter⟩ := guid
  have skip : ∀ (word : UInt64) (k : Nat) (behind : Bytes),
      (longBytes word ++ behind).drop (k + 8) = behind.drop k := by
    intro word k behind
    rw [List.drop_append, longBytes_length, Nat.add_sub_cancel,
      List.drop_eq_nil_of_le (by simp), List.nil_append]
  have front : ∀ (word : UInt64) (behind : Bytes),
      (longBytes word ++ behind).take 8 = longBytes word :=
    fun word behind => List.take_left' (longBytes_length word)
  simp only [ofBytes, bytes, List.append_assoc, front, long_longBytes, skip _ 0, skip _ 8, skip _ 16,
    List.drop_zero]

theorem bytes_injective : Function.Injective bytes := by
  intro left right same
  rw [← ofBytes_bytes left [], ← ofBytes_bytes right [], same]

/-- `memcmp` compares the bytes as numbers, the first of them first. -/
def memory (guid : Guid) : List Nat := guid.bytes.map UInt8.toNat

theorem memory_injective : Function.Injective memory := fun _ _ same =>
  bytes_injective (List.map_injective_iff.mpr (fun _ _ => UInt8.toNat_inj.mp) same)

/-- `sbfGuid_compare` -/
instance : LinearOrder Guid := LinearOrder.lift' memory memory_injective

end Guid

end Sbf
