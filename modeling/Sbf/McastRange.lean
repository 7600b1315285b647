import Mathlib.Algebra.Group.Nat.Defs
import Sbf.StringParts
import Sbf.TopicCreate

set_option autoImplicit false

namespace Sbf

open Octets

/-- What the C standard leaves undefined in unsigned arithmetic. -/
inductive Undefined where
  | shift
  | modulus
  deriving DecidableEq, Repr

namespace UInt

/-- `x << n` of a 32-bit word. -/
def shl (x n : UInt32) : Except Undefined UInt32 :=
  if n < 32 then .ok (x <<< n) else .error .shift

/-- `x % n` -/
def mod (x n : UInt32) : Except Undefined UInt32 :=
  if n = 0 then .error .modulus else .ok (x % n)

end UInt

/-- `ntohl` and `htonl` of a little-endian machine. -/
def ntohl (n : UInt32) : UInt32 :=
  UInt32.ofNat (n.toNat % 256 * 2 ^ 24 + n.toNat / 2 ^ 8 % 256 * 2 ^ 16 +
    n.toNat / 2 ^ 16 % 256 * 2 ^ 8 + n.toNat / 2 ^ 24)

private theorem octets_of_sum {a b c d n : Nat} (ha : a < 256) (hb : b < 256) (hc : c < 256)
    (hd : d < 256) (sum : n = a * 2 ^ 24 + b * 2 ^ 16 + c * 2 ^ 8 + d) :
    n < 2 ^ 32 ∧ n % 256 = d ∧ n / 2 ^ 8 % 256 = c ∧ n / 2 ^ 16 % 256 = b ∧ n / 2 ^ 24 = a := by
  omega

theorem ntohl_ntohl (n : UInt32) : ntohl (ntohl n) = n := by
  have small : n.toNat < 2 ^ 32 := n.toNat_lt
  have octet : ∀ k : Nat, k % 256 < 256 := fun k => Nat.mod_lt k (by decide)
  have top : n.toNat / 2 ^ 24 < 256 := by omega
  have whole : n.toNat / 2 ^ 24 * 2 ^ 24 + n.toNat / 2 ^ 16 % 256 * 2 ^ 16 +
      n.toNat / 2 ^ 8 % 256 * 2 ^ 8 + n.toNat % 256 = n.toNat := by omega
  have swapped := octets_of_sum (octet n.toNat) (octet (n.toNat / 2 ^ 8))
    (octet (n.toNat / 2 ^ 16)) top rfl
  apply UInt32.toNat_inj.mp
  simp only [ntohl, UInt32.toNat_ofNat', Nat.mod_eq_of_lt swapped.1, swapped.2, whole,
    Nat.mod_eq_of_lt small]

namespace McastTopicResolver

def dot : UInt8 := 46

def isDigit (c : UInt8) : Bool := 48 ≤ c && c ≤ 57

/-- `strtoul`; a number that does not fit is the largest one. -/
def strtoul (negative : Bool) (digits : Bytes) : UInt64 :=
  let n := digits.foldl (fun n c => 10 * n + (c.toNat - 48)) 0
  if 2 ^ 64 ≤ n then 0xffffffffffffffff
  else if negative then 0 - UInt64.ofNat n
  else UInt64.ofNat n

/-- `%u` of `sscanf` before it is cut to the width of its argument: blanks, a sign and
digits, with what follows them. -/
def scanNumber (s : Bytes) : Option (UInt64 × Bytes) :=
  let s := s.dropWhile isSpace
  let (negative, s) :=
    match s with
    | 45 :: rest => (true, rest)
    | 43 :: rest => (false, rest)
    | _ => (false, s)
  if s.takeWhile isDigit = [] then none
  else some (strtoul negative (s.takeWhile isDigit), s.dropWhile isDigit)

/-- `sscanf` with a number, and for each of `literals` that character and another number;
only when all conversions are made. -/
def scan : Bytes → List UInt8 → Option (List UInt64)
  | s, [] => (scanNumber s).map (fun done => [done.1])
  | s, literal :: literals =>
      match scanNumber s with
      | none => none
      | some (number, rest) =>
          match rest with
          | [] => none
          | c :: rest =>
              if c = literal then (scan rest literals).map (number :: ·) else none

/-- The union of `sbfMcastTopicResolverParseRange`, whose octets are zero at first. -/
def address (octets : List UInt16) : UInt32 :=
  UInt32.ofNat (octets.foldr (fun octet rest => octet.toNat + 256 * rest) 0)

/-- One attempt of `sbfMcastTopicResolverParseRange`, at `count` octets. -/
def parseOctets (s : Bytes) (count : Nat) : Option (UInt32 × UInt32) :=
  match scan s (List.replicate (count - 1) dot ++ [slash]) with
  | none => none
  | some numbers =>
      let octets := (numbers.take count).map UInt64.toUInt16
      let bits := (numbers.drop count).map UInt64.toUInt32
      if octets.all (· < 256) then bits.head?.map (fun bits => (address octets, bits)) else none

/-- `sbfMcastTopicResolverParseRange`; the number of bits is not read when the range is zero. -/
def parseRange (s : Bytes) : UInt32 × UInt32 :=
  ((parseOctets s 4).or ((parseOctets s 3).or ((parseOctets s 2).or (parseOctets s 1)))).getD
    (0, 0)

end McastTopicResolver

/-- `struct sbfMcastTopicResolverImpl` -/
structure McastTopicResolver where
  mBase : UInt32
  mFirstSize : UInt32
  mSecondSize : UInt32
  mThirdSize : UInt32
  mFirstShift : UInt32
  mSecondShift : UInt32
  deriving DecidableEq, Repr

namespace McastTopicResolver

/-- `239.100/16` -/
def defaultAddress : Bytes := [50, 51, 57, 46, 49, 48, 48, 47, 49, 54]

/-- The sizes and shifts that `sbfMcastTopicResolver_create` derives from the number of
bits below the prefix. -/
def layout (range bits : UInt32) : Except Undefined McastTopicResolver := do
  let first := bits / 6 * 1
  let second := bits / 6 * 1
  let third := bits - first - second
  let mFirstSize := 1 + ~~~(← UInt.shl 0xffffffff first)
  let mSecondSize := 1 + ~~~(← UInt.shl 0xffffffff second)
  let mThirdSize := 1 + ~~~(← UInt.shl 0xffffffff third) - 2
  return ⟨range, mFirstSize, mSecondSize, mThirdSize, second + third, third⟩

/-- The range of an address, or of the default one when there is none. -/
def rangeOf (address : Option CString) : UInt32 × UInt32 :=
  parseRange ((address.map CString.chars).getD defaultAddress)

/-- `sbfMcastTopicResolver_create` -/
def create (address : Option CString) : Except Undefined (Option McastTopicResolver) :=
  let (range, bits) := rangeOf address
  if range = 0 then .ok none
  else if bits > 24 then .ok none
  else (layout range (32 - bits)).map some

/-- The number of bits below the prefix. -/
def hostBits (address : Option CString) : Nat := 32 - (rangeOf address).2.toNat

example : parseRange defaultAddress = (ntohl 0xef640000, 16) := by decide

/-- How the bits below the prefix are divided. -/
structure Fields (mtr : McastTopicResolver) (bits width third : Nat) : Prop where
  total : width + width + third = bits
  within : bits ≤ 32
  room : 0 < width ∧ 6 ≤ third
  firstSize : mtr.mFirstSize.toNat = 2 ^ width
  secondSize : mtr.mSecondSize.toNat = 2 ^ width
  thirdSize : mtr.mThirdSize.toNat + 2 = 2 ^ third
  firstShift : mtr.mFirstShift.toNat = width + third
  secondShift : mtr.mSecondShift.toNat = third

theorem size_toNat {n : UInt32} (small : n < 32) :
    (1 + ~~~((0xffffffff : UInt32) <<< n)).toNat = 2 ^ n.toNat := by
  have all : ∀ k : Fin 32,
      (1 + ~~~((0xffffffff : UInt32) <<< UInt32.ofNat k.val)).toNat = 2 ^ k.val := by decide
  have here := all ⟨n.toNat, UInt32.lt_iff_toNat_lt.mp small⟩
  simpa only [UInt32.ofNat_toNat] using here

theorem shl_ok (x : UInt32) {n : UInt32} (small : n < 32) : UInt.shl x n = .ok (x <<< n) := by
  simp only [UInt.shl, small, ↓reduceIte]

/-- Every number of bits that is accepted is divided into three fields. -/
theorem layout_fields (range bits : UInt32) (low : 8 ≤ bits.toNat)
    (high : bits.toNat ≤ 32) :
    ∃ mtr, layout range bits = .ok mtr ∧ mtr.mBase = range ∧
      Fields mtr bits.toNat (bits.toNat / 6) (bits.toNat - 2 * (bits.toNat / 6)) := by
  have width : (bits / 6 * 1).toNat = bits.toNat / 6 := by
    simp only [UInt32.mul_one, UInt32.toNat_div, UInt32.reduceToNat]
  have third : (bits - bits / 6 * 1 - bits / 6 * 1).toNat = bits.toNat - 2 * (bits.toNat / 6) := by
    rw [UInt32.toNat_sub_of_le, UInt32.toNat_sub_of_le, width]
    · omega
    · rw [UInt32.le_iff_toNat_le, width]
      omega
    · rw [UInt32.le_iff_toNat_le, UInt32.toNat_sub_of_le, width]
      · omega
      · rw [UInt32.le_iff_toNat_le, width]
        omega
  have widthSmall : bits / 6 * 1 < 32 := by
    rw [UInt32.lt_iff_toNat_lt, width]
    change bits.toNat / 6 < 32
    omega
  have thirdSmall : bits - bits / 6 * 1 - bits / 6 * 1 < 32 := by
    rw [UInt32.lt_iff_toNat_lt, third]
    change bits.toNat - 2 * (bits.toNat / 6) < 32
    omega
  have many : 2 ^ 6 ≤ 2 ^ (bits.toNat - 2 * (bits.toNat / 6)) := by
    apply Nat.pow_le_pow_right
    · decide
    · omega
  have run : layout range bits = .ok ⟨range,
      1 + ~~~((0xffffffff : UInt32) <<< (bits / 6 * 1)),
      1 + ~~~((0xffffffff : UInt32) <<< (bits / 6 * 1)),
      1 + ~~~((0xffffffff : UInt32) <<< (bits - bits / 6 * 1 - bits / 6 * 1)) - 2,
      bits / 6 * 1 + (bits - bits / 6 * 1 - bits / 6 * 1),
      bits - bits / 6 * 1 - bits / 6 * 1⟩ := by
    simp only [layout, shl_ok _ widthSmall, shl_ok _ thirdSmall]
    rfl
  refine ⟨_, run, rfl, ?_⟩
  constructor
  case total => omega
  case within => exact high
  case room => omega
  case firstSize => rw [size_toNat widthSmall, width]
  case secondSize => rw [size_toNat widthSmall, width]
  case thirdSize =>
      rw [UInt32.toNat_sub_of_le, size_toNat thirdSmall, third]
      · change 2 ^ (bits.toNat - 2 * (bits.toNat / 6)) - 2 + 2 = _
        omega
      · rw [UInt32.le_iff_toNat_le, size_toNat thirdSmall, third]
        change 2 ≤ 2 ^ (bits.toNat - 2 * (bits.toNat / 6))
        omega
  case firstShift =>
      rw [UInt32.toNat_add, width, third]
      omega
  case secondShift => exact third

/-- Creating a resolver shifts by less than the width of a word, and an accepted range has
at least eight bits below its prefix. -/
theorem create_cases (address : Option CString) :
    create address = .ok none ∨
    ∃ mtr, create address = .ok (some mtr) ∧ mtr.mBase = (rangeOf address).1 ∧
      ∃ width third, Fields mtr (hostBits address) width third := by
  unfold create hostBits
  obtain ⟨range, bits⟩ := rangeOf address
  dsimp only
  split
  case isTrue => exact Or.inl rfl
  case isFalse =>
      split
      case isTrue => exact Or.inl rfl
      case isFalse few =>
          right
          have small : bits.toNat ≤ 24 := by
            simpa only [gt_iff_lt, UInt32.not_lt, UInt32.le_iff_toNat_le, UInt32.reduceToNat]
              using few
          have left : (32 - bits).toNat = 32 - bits.toNat := by
            rw [UInt32.toNat_sub_of_le]
            · rfl
            · rw [UInt32.le_iff_toNat_le]
              change bits.toNat ≤ 32
              omega
          obtain ⟨mtr, made, base, fields⟩ := layout_fields range (32 - bits)
            (by omega) (by omega)
          rw [left] at fields
          exact ⟨mtr, by rw [made]; rfl, base, _, _, fields⟩

end McastTopicResolver

end Sbf
