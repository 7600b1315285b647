import Mathlib.Tactic.Ring
import Sbf.McastRange

set_option autoImplicit false

namespace Sbf

open Octets

/-- `HASHINIT` -/
def hashInit : UInt32 := 5381

/-- `HASHSTEP` -/
def hashStep (x : UInt32) (c : UInt8) : UInt32 := ((x <<< 5) + x) + c.toUInt32

/-- `hash32_str` -/
def hash32Str (buf : CString) (hash : UInt32) : UInt32 := buf.chars.foldl hashStep hash

namespace McastTopicResolver

/-- `sbfMcastTopicResolver_makeAddress` -/
def makeAddress (mtr : McastTopicResolver) (topic : Topic) : Except Undefined UInt32 := do
  let address := ntohl mtr.mBase
  let h := hash32Str topic.mFirst hashInit
  let address := address ||| (← UInt.shl (← UInt.mod h mtr.mFirstSize) mtr.mFirstShift)
  let h := hash32Str topic.mSecond hashInit
  let address := address ||| (← UInt.shl (← UInt.mod h mtr.mSecondSize) mtr.mSecondShift)
  let h := hash32Str topic.mThird hashInit
  let address := address ||| (1 + (← UInt.mod h mtr.mThirdSize))
  return ntohl address

/-- The residues of the hashes of the three parts. -/
def residues (mtr : McastTopicResolver) (topic : Topic) : Nat × Nat × Nat :=
  ((hash32Str topic.mFirst hashInit).toNat % mtr.mFirstSize.toNat,
    (hash32Str topic.mSecond hashInit).toNat % mtr.mSecondSize.toNat,
    (hash32Str topic.mThird hashInit).toNat % mtr.mThirdSize.toNat)

/-- The bits of an address between one shift and the next one above it. -/
def hostField (address : UInt32) (high low : Nat) : Nat :=
  (ntohl address).toNat % 2 ^ high / 2 ^ low

theorem mod_ok (x : UInt32) {n : UInt32} (positive : 0 < n.toNat) :
    UInt.mod x n = .ok (x % n) := by
  have nonzero : n ≠ 0 := by
    intro zero
    rw [zero] at positive
    exact absurd positive (by decide)
  simp only [UInt.mod, nonzero, ↓reduceIte]

/-- A field that starts where the bits below it end is shifted into place whole. -/
theorem shiftLeft_toNat {x n : UInt32} {width : Nat} (small : x.toNat < 2 ^ width)
    (inside : width + n.toNat ≤ 32) (shifts : n.toNat < 32) :
    (x <<< n).toNat = x.toNat * 2 ^ n.toNat := by
  have bound : x.toNat * 2 ^ n.toNat < 2 ^ 32 := by
    calc x.toNat * 2 ^ n.toNat < 2 ^ width * 2 ^ n.toNat :=
          Nat.mul_lt_mul_of_pos_right small (Nat.two_pow_pos _)
      _ = 2 ^ (width + n.toNat) := (Nat.pow_add 2 width n.toNat).symm
      _ ≤ 2 ^ 32 := Nat.pow_le_pow_right (by decide) inside
  rw [UInt32.toNat_shiftLeft, Nat.mod_eq_of_lt shifts, Nat.shiftLeft_eq, Nat.mod_eq_of_lt bound]

/-- Where a number is a multiple of `2 ^ i`, a smaller one is added by `|`. -/
theorem or_eq_add {a b i : Nat} (clean : a % 2 ^ i = 0) (small : b < 2 ^ i) : a ||| b = a + b := by
  have whole : a = 2 ^ i * (a / 2 ^ i) := by
    have split := Nat.mod_add_div a (2 ^ i)
    omega
  rw [whole, Nat.two_pow_add_eq_or_of_lt small]

/-- The digits of a number whose places have the weights `P`, `W * P` and `W * (W * P)`. -/
private theorem digits_of_sum {n q f s t W P : Nat} (hf : f < W) (hs : s < W) (ht : t < P)
    (sum : n = ((q * W + f) * W + s) * P + t) :
    n % P = t ∧ n / P % W = s ∧ n / P / W % W = f ∧ n / P / W / W = q := by
  have place : ∀ {a b m : Nat}, b < m → (a * m + b) % m = b ∧ (a * m + b) / m = a := by
    intro a b m small
    constructor
    · rw [Nat.mul_add_mod', Nat.mod_eq_of_lt small]
    · rw [Nat.add_comm, Nat.add_mul_div_right _ _ (Nat.zero_lt_of_lt small),
        Nat.div_eq_of_lt small, Nat.zero_add]
  have one : n / P = (q * W + f) * W + s := by rw [sum, (place ht).2]
  have two : n / P / W = q * W + f := by rw [one, (place hs).2]
  refine ⟨?_, ?_, ?_, ?_⟩
  · rw [sum, (place ht).1]
  · rw [one, (place hs).1]
  · rw [two, (place hf).1]
  · rw [two, (place hf).2]

section Made

variable {mtr : McastTopicResolver} {bits width third : Nat} (fields : Fields mtr bits width third)
include fields

theorem residues_lt (topic : Topic) :
    (mtr.residues topic).1 < 2 ^ width ∧ (mtr.residues topic).2.1 < 2 ^ width ∧
      (mtr.residues topic).2.2 + 2 < 2 ^ third := by
  have many : 2 ^ 6 ≤ 2 ^ third := Nat.pow_le_pow_right (by decide) fields.room.2
  have size := fields.thirdSize
  refine ⟨?_, ?_, ?_⟩
  · rw [← fields.firstSize]
    apply Nat.mod_lt
    rw [fields.firstSize]
    exact Nat.two_pow_pos width
  · rw [← fields.secondSize]
    apply Nat.mod_lt
    rw [fields.secondSize]
    exact Nat.two_pow_pos width
  · have below : (mtr.residues topic).2.2 < mtr.mThirdSize.toNat := Nat.mod_lt _ (by omega)
    omega

/-- No operation is undefined, and each field is added below the ones before it. -/
theorem makeAddress_sum (clean : (ntohl mtr.mBase).toNat % 2 ^ bits = 0) (topic : Topic) :
    ∃ out, makeAddress mtr topic = .ok out ∧
      (ntohl out).toNat = (ntohl mtr.mBase).toNat +
        (mtr.residues topic).1 * 2 ^ (width + third) + (mtr.residues topic).2.1 * 2 ^ third +
        (1 + (mtr.residues topic).2.2) := by
  obtain ⟨firstLt, secondLt, thirdLt⟩ := residues_lt fields topic
  have total := fields.total
  have within := fields.within
  have room := fields.room
  have many : 2 ^ 6 ≤ 2 ^ third := Nat.pow_le_pow_right (by decide) room.2
  have word : 2 ^ third ≤ 2 ^ 32 := Nat.pow_le_pow_right (by decide) (by omega)
  have size := fields.thirdSize
  let first := hash32Str topic.mFirst hashInit % mtr.mFirstSize
  let second := hash32Str topic.mSecond hashInit % mtr.mSecondSize
  let last := hash32Str topic.mThird hashInit % mtr.mThirdSize
  have firstIs : first.toNat = (mtr.residues topic).1 := UInt32.toNat_mod _ _
  have secondIs : second.toNat = (mtr.residues topic).2.1 := UInt32.toNat_mod _ _
  have lastIs : (1 + last).toNat = 1 + (mtr.residues topic).2.2 := by
    have residue : last.toNat = (mtr.residues topic).2.2 := UInt32.toNat_mod _ _
    rw [UInt32.toNat_add, residue]
    apply Nat.mod_eq_of_lt
    change 1 + (mtr.residues topic).2.2 < 2 ^ 32
    omega
  have firstShift : mtr.mFirstShift < 32 := by
    rw [UInt32.lt_iff_toNat_lt, fields.firstShift]
    change width + third < 32
    omega
  have secondShift : mtr.mSecondShift < 32 := by
    rw [UInt32.lt_iff_toNat_lt, fields.secondShift]
    change third < 32
    omega
  have run : makeAddress mtr topic = .ok (ntohl (ntohl mtr.mBase ||| first <<< mtr.mFirstShift |||
      second <<< mtr.mSecondShift ||| (1 + last))) := by
    have firstPos : 0 < mtr.mFirstSize.toNat := by
      rw [fields.firstSize]
      exact Nat.two_pow_pos width
    have secondPos : 0 < mtr.mSecondSize.toNat := by
      rw [fields.secondSize]
      exact Nat.two_pow_pos width
    have thirdPos : 0 < mtr.mThirdSize.toNat := by omega
    simp only [makeAddress, mod_ok _ firstPos, mod_ok _ secondPos, mod_ok _ thirdPos,
      bind, Except.bind, shl_ok _ firstShift, shl_ok _ secondShift]
    rfl
  refine ⟨_, run, ?_⟩
  have firstPlace : (first <<< mtr.mFirstShift).toNat =
      (mtr.residues topic).1 * 2 ^ (width + third) := by
    rw [shiftLeft_toNat (firstIs ▸ firstLt), firstIs, fields.firstShift]
    · rw [fields.firstShift]
      omega
    · exact UInt32.lt_iff_toNat_lt.mp firstShift
  have secondPlace : (second <<< mtr.mSecondShift).toNat =
      (mtr.residues topic).2.1 * 2 ^ third := by
    rw [shiftLeft_toNat (secondIs ▸ secondLt), secondIs, fields.secondShift]
    · rw [fields.secondShift]
      omega
    · exact UInt32.lt_iff_toNat_lt.mp secondShift
  have inBits : (mtr.residues topic).1 * 2 ^ (width + third) < 2 ^ bits := by
    calc (mtr.residues topic).1 * 2 ^ (width + third) < 2 ^ width * 2 ^ (width + third) :=
          Nat.mul_lt_mul_of_pos_right firstLt (Nat.two_pow_pos _)
      _ = 2 ^ bits := by rw [← Nat.pow_add, ← total, Nat.add_assoc]
  have inFirst : (mtr.residues topic).2.1 * 2 ^ third < 2 ^ (width + third) := by
    rw [Nat.pow_add]
    exact Nat.mul_lt_mul_of_pos_right secondLt (Nat.two_pow_pos _)
  have cleanFirst : ((ntohl mtr.mBase).toNat + (mtr.residues topic).1 * 2 ^ (width + third)) %
      2 ^ (width + third) = 0 := by
    have divides : 2 ^ (width + third) ∣ 2 ^ bits := Nat.pow_dvd_pow 2 (by omega)
    rw [Nat.add_mul_mod_self_right, ← Nat.mod_mod_of_dvd _ divides, clean, Nat.zero_mod]
  have cleanSecond : ((ntohl mtr.mBase).toNat + (mtr.residues topic).1 * 2 ^ (width + third) +
      (mtr.residues topic).2.1 * 2 ^ third) % 2 ^ third = 0 := by
    have divides : 2 ^ third ∣ 2 ^ (width + third) := Nat.pow_dvd_pow 2 (by omega)
    rw [Nat.add_mul_mod_self_right, ← Nat.mod_mod_of_dvd _ divides, cleanFirst, Nat.zero_mod]
  rw [ntohl_ntohl, UInt32.toNat_or, UInt32.toNat_or, UInt32.toNat_or, firstPlace, secondPlace,
    lastIs, or_eq_add clean inBits, or_eq_add cleanFirst inFirst,
    or_eq_add cleanSecond (by omega)]

/-- What the address holds at the places of the base and of the three fields. -/
theorem makeAddress_places (clean : (ntohl mtr.mBase).toNat % 2 ^ bits = 0) (topic : Topic) :
    ∃ out, makeAddress mtr topic = .ok out ∧
      (ntohl out).toNat / 2 ^ bits = (ntohl mtr.mBase).toNat / 2 ^ bits ∧
      hostField out bits (width + third) = (mtr.residues topic).1 ∧
      hostField out (width + third) third = (mtr.residues topic).2.1 ∧
      hostField out third 0 = 1 + (mtr.residues topic).2.2 := by
  obtain ⟨out, run, sum⟩ := makeAddress_sum fields clean topic
  obtain ⟨firstLt, secondLt, thirdLt⟩ := residues_lt fields topic
  have whole : 2 ^ bits = 2 ^ width * (2 ^ width * 2 ^ third) := by
    rw [← fields.total, Nat.pow_add, Nat.pow_add, Nat.mul_assoc]
  have middle : 2 ^ (width + third) = 2 ^ width * 2 ^ third := Nat.pow_add _ _ _
  have base : (ntohl mtr.mBase).toNat = (ntohl mtr.mBase).toNat / 2 ^ bits * 2 ^ bits := by
    have split := Nat.mod_add_div (ntohl mtr.mBase).toNat (2 ^ bits)
    rw [clean, Nat.zero_add, Nat.mul_comm] at split
    exact split.symm
  have digits := digits_of_sum (n := (ntohl out).toNat)
    (q := (ntohl mtr.mBase).toNat / 2 ^ bits) firstLt secondLt
    (show 1 + (mtr.residues topic).2.2 < 2 ^ third by omega)
    (by
      rw [sum]
      conv_lhs => rw [base]
      rw [whole, middle]
      ring)
  obtain ⟨low, mid, high, top⟩ := digits
  refine ⟨out, run, ?_, ?_, ?_, ?_⟩
  · rw [← top, whole, Nat.div_div_eq_div_mul, Nat.div_div_eq_div_mul, Nat.mul_comm (2 ^ third),
      Nat.mul_assoc]
  · rw [hostField, whole, middle, Nat.mod_mul_left_div_self, Nat.mul_comm,
      ← Nat.div_div_eq_div_mul, high]
  · rw [hostField, middle, Nat.mod_mul_left_div_self, mid]
  · rw [hostField, Nat.pow_zero, Nat.div_one, low]

/-- The last field is neither empty nor full, so the host part is neither. -/
theorem makeAddress_host (clean : (ntohl mtr.mBase).toNat % 2 ^ bits = 0) {topic : Topic}
    {out : UInt32} (run : makeAddress mtr topic = .ok out) :
    (ntohl out).toNat % 2 ^ bits ≠ 0 ∧ (ntohl out).toNat % 2 ^ bits ≠ 2 ^ bits - 1 := by
  obtain ⟨_, again, _, _, _, last⟩ := makeAddress_places fields clean topic
  obtain rfl : out = _ := Except.ok.inj (run.symm.trans again)
  obtain ⟨_, _, thirdLt⟩ := residues_lt fields topic
  rw [hostField, Nat.pow_zero, Nat.div_one] at last
  have whole : 2 ^ bits = 2 ^ (width + width) * 2 ^ third := by
    rw [← fields.total, Nat.pow_add]
  have low : (ntohl out).toNat % 2 ^ bits % 2 ^ third = 1 + (mtr.residues topic).2.2 := by
    rw [Nat.mod_mod_of_dvd _ (Dvd.intro_left _ whole.symm), last]
  constructor
  · intro zero
    rw [zero, Nat.zero_mod] at low
    omega
  · intro full
    have positive : 0 < 2 ^ (width + width) := Nat.two_pow_pos _
    have ones : (2 ^ bits - 1) % 2 ^ third = 2 ^ third - 1 := by
      have split : 2 ^ bits - 1 = (2 ^ (width + width) - 1) * 2 ^ third + (2 ^ third - 1) := by
        rw [whole, Nat.sub_mul, Nat.one_mul]
        have least : 2 ^ third ≤ 2 ^ (width + width) * 2 ^ third :=
          Nat.le_mul_of_pos_left _ positive
        have room : 0 < 2 ^ third := Nat.two_pow_pos _
        omega
      rw [split, Nat.mul_add_mod', Nat.mod_eq_of_lt (by omega)]
    rw [full, ones] at low
    omega

/-- The fields of an address are read back from it, so equal addresses have equal ones. -/
theorem makeAddress_inj (clean : (ntohl mtr.mBase).toNat % 2 ^ bits = 0) (left right : Topic) :
    makeAddress mtr left = makeAddress mtr right ↔ mtr.residues left = mtr.residues right := by
  obtain ⟨out, run, prefixes, first, second, last⟩ := makeAddress_places fields clean left
  obtain ⟨out', run', prefixes', first', second', last'⟩ := makeAddress_places fields clean right
  constructor
  · intro same
    obtain rfl : out = out' := Except.ok.inj (run.symm.trans (same.trans run'))
    apply Prod.ext
    · exact first.symm.trans first'
    · apply Prod.ext
      · exact second.symm.trans second'
      · exact Nat.add_left_cancel (last.symm.trans last')
  · intro same
    obtain ⟨_, again, sum⟩ := makeAddress_sum fields clean left
    obtain rfl : out = _ := Except.ok.inj (run.symm.trans again)
    obtain ⟨_, again', sum'⟩ := makeAddress_sum fields clean right
    obtain rfl : out' = _ := Except.ok.inj (run'.symm.trans again')
    have hosts : ntohl out = ntohl out' := by
      apply UInt32.toNat_inj.mp
      rw [sum, sum', same]
    rw [run, run', ← ntohl_ntohl out, hosts, ntohl_ntohl]

end Made

/-- Addresses stay inside the range: a range that is accepted with a clean base gives every
topic an address with the base's prefix and a host part that is neither all zeros nor all
ones; its first two fields are the residues of the hashes of the first two parts and the last
field is one more than that of the third, so that topics with equal addresses are those with
equal residues. -/
theorem create_addresses (address : Option CString) :
    (∃ made, create address = .ok made) ∧
    ∀ mtr, create address = .ok (some mtr) →
      (ntohl mtr.mBase).toNat % 2 ^ hostBits address = 0 →
      (∀ topic, ∃ out, makeAddress mtr topic = .ok out ∧
        (ntohl out).toNat / 2 ^ hostBits address =
          (ntohl mtr.mBase).toNat / 2 ^ hostBits address ∧
        (ntohl out).toNat % 2 ^ hostBits address ≠ 0 ∧
        (ntohl out).toNat % 2 ^ hostBits address ≠ 2 ^ hostBits address - 1 ∧
        hostField out (hostBits address) mtr.mFirstShift.toNat = (mtr.residues topic).1 ∧
        hostField out mtr.mFirstShift.toNat mtr.mSecondShift.toNat = (mtr.residues topic).2.1 ∧
        hostField out mtr.mSecondShift.toNat 0 = 1 + (mtr.residues topic).2.2) ∧
      ∀ left right, makeAddress mtr left = makeAddress mtr right ↔
        mtr.residues left = mtr.residues right := by
  cases create_cases address with
  | inl refused =>
      refine ⟨⟨_, refused⟩, ?_⟩
      intro mtr made
      rw [refused] at made
      cases made
  | inr accepted =>
      obtain ⟨mtr, made, _, width, third, fields⟩ := accepted
      refine ⟨⟨_, made⟩, ?_⟩
      intro other same clean
      obtain rfl : mtr = other := Option.some.inj (Except.ok.inj (made.symm.trans same))
      refine ⟨?_, makeAddress_inj fields clean⟩
      intro topic
      obtain ⟨out, run, kept, first, second, last⟩ := makeAddress_places fields clean topic
      rw [fields.firstShift, fields.secondShift]
      have host := makeAddress_host fields clean run
      exact ⟨out, run, kept, host.1, host.2, first, second, last⟩

/-- The topic `//a`. -/
def single : Topic := ⟨.pub, ⟨[47, 47, 97], by decide⟩, .empty, .empty, ⟨[97], by decide⟩,
  by decide, by decide⟩

theorem create_addresses_default :
    ∃ mtr, create none = .ok (some mtr) ∧ (ntohl mtr.mBase).toNat % 2 ^ hostBits none = 0 ∧
      ∃ out, makeAddress mtr single = .ok out ∧
        (ntohl out).toNat / 2 ^ hostBits none = (ntohl mtr.mBase).toNat / 2 ^ hostBits none := by
  have made : create none =
      .ok (some ⟨ntohl 0xef640000, 4, 4, 4094, 14, 12⟩) := by decide
  have clean : (ntohl (ntohl 0xef640000)).toNat % 2 ^ hostBits none = 0 := by decide
  obtain ⟨out, run, kept, _⟩ := ((create_addresses none).2 _ made clean).1 single
  exact ⟨_, made, clean, out, run, kept⟩

/-- The last field is not the residue itself. -/
theorem makeAddress_last_field :
    ¬ ∀ (address : Option CString) (mtr : McastTopicResolver),
      create address = .ok (some mtr) → (ntohl mtr.mBase).toNat % 2 ^ hostBits address = 0 →
      ∀ (topic : Topic) (out : UInt32), makeAddress mtr topic = .ok out →
        hostField out (hostBits address) mtr.mFirstShift.toNat = (mtr.residues topic).1 ∧
        hostField out mtr.mFirstShift.toNat mtr.mSecondShift.toNat = (mtr.residues topic).2.1 ∧
        hostField out mtr.mSecondShift.toNat 0 = (mtr.residues topic).2.2 := by
  intro all
  have made : create none =
      .ok (some ⟨ntohl 0xef640000, 4, 4, 4094, 14, 12⟩) := by decide
  have run : makeAddress ⟨ntohl 0xef640000, 4, 4, 4094, 14, 12⟩ single =
      .ok (ntohl 0xef64565d) := by decide
  have last := (all none _ made (by decide) single _ run).2.2
  exact absurd last (by decide)

end McastTopicResolver

end Sbf
