import Sbf.Interfaces
import Sbf.NumberText

set_option autoImplicit false

/-! Interfaces by name, or by the first octets of their addresses. -/

namespace Sbf

open Octets

namespace McastTopicResolver

theorem isDigit_ten (c : UInt8) : isDigit c = Octets.isDigit 10 c := by
  rw [Bool.eq_iff_iff, digit_ten_iff]
  simp only [isDigit, UInt8.le_iff_toNat_le, UInt8.reduceToNat, Bool.and_eq_true, decide_eq_true_eq]

theorem strtoul_unsigned (negative : Bool) {digits : Bytes}
    (decimal : ∀ c ∈ digits, Octets.isDigit 10 c = true) :
    strtoul negative digits = Numeral.toUnsigned 10 ⟨negative, digits⟩ := by
  have value : digits.foldl (fun n c => 10 * n + (c.toNat - 48)) 0 = magnitude 10 digits := by
    apply List.foldl_ext
    intro n c member
    rw [digitValue_ten (decimal c member)]
    rfl
  simp only [strtoul, Numeral.toUnsigned, value]

/-- What `sscanf` takes for a number is a numeral. -/
theorem scanNumber_numeral (s : Bytes) :
    scanNumber s = (readNumeral 10 s).map fun read => (read.1.toUnsigned 10, read.2) := by
  have digits : isDigit = Octets.isDigit 10 := funext isDigit_ten
  have signed : ∀ (negative : Bool) (s : Bytes),
      (if s.takeWhile isDigit = [] then none
        else some (strtoul negative (s.takeWhile isDigit), s.dropWhile isDigit)) =
      ((if s.takeWhile (Octets.isDigit 10) = [] then none
        else some ((⟨negative, s.takeWhile (Octets.isDigit 10)⟩ : Numeral),
          s.dropWhile (Octets.isDigit 10))).map fun read => (read.1.toUnsigned 10, read.2)) := by
    intro negative s
    rw [digits]
    split
    · rfl
    · rw [strtoul_unsigned negative (fun c member => List.mem_takeWhile_imp member)]
      rfl
  simp only [readNumeral, dropPrefix_ten]
  rw [← signed]
  refine congrArg (fun signed : Bool × Bytes =>
    if signed.2.takeWhile isDigit = [] then none
    else some (strtoul signed.1 (signed.2.takeWhile isDigit), signed.2.dropWhile isDigit)) ?_
  split
  · rename_i same
    rw [same]
    rfl
  · rename_i same
    rw [same]
    rfl
  · rename_i notMinus notPlus
    exact (takeSign.eq_3 _ notMinus notPlus).symm

/-- `sscanf` with all of its conversions made. -/
theorem scan_numerals (s : Bytes) (literals : List UInt8) :
    scan s literals =
      if (scanNumerals 10 s literals).length = literals.length + 1 then
        some ((scanNumerals 10 s literals).map (Numeral.toUnsigned 10))
      else none := by
  induction literals generalizing s with
  | nil =>
      rw [scan, scanNumerals, scanNumber_numeral]
      cases readNumeral 10 s with
      | none => rfl
      | some read => rfl
  | cons literal literals ih =>
      rw [scan, scanNumerals, scanNumber_numeral]
      rcases readNumeral 10 s with _ | ⟨numeral, _ | ⟨c, rest⟩⟩
      · rfl
      · rfl
      · simp only [Option.map_some]
        by_cases same : c = literal
        · simp only [if_pos same, ih rest, List.length_cons, Nat.add_right_cancel_iff]
          split <;> rfl
        · simp only [if_neg same]
          rfl

end McastTopicResolver

namespace Interface

open McastTopicResolver (scan scan_numerals address dot)

section Find

variable (cut : UInt64 → UInt16)

/-- One attempt of `sbfInterfaceFind`, at `count` octets. `cut` is how `%hu` stores a number,
which the C standard leaves open for those that do not fit. -/
def attempt (name : Bytes) (count : Nat) (mask : UInt32) : Option (UInt32 × UInt32) :=
  match scan name (List.replicate (count - 1) dot) with
  | none => none
  | some numbers =>
      let octets := numbers.map cut
      if octets.all (· < 256) then some (ntohl mask, address octets) else none

/-- The mask and the address that a name is taken for. -/
def pattern (name : Bytes) : Option (UInt32 × UInt32) :=
  (attempt cut name 4 0xffffffff).or ((attempt cut name 3 0xffffff00).or
    ((attempt cut name 2 0xffff0000).or (attempt cut name 1 0xff000000)))

/-- The loop over the interfaces for a mask and an address. -/
def matching (table : List Interface) (mask address : UInt32) : Option Interface :=
  table.find? fun iff => iff.mAddress &&& mask = address &&& mask

/-- The loop over the interfaces for a name. -/
def named (table : List Interface) (name : CString) : Option Interface :=
  table.find? fun iff => iff.mName = name

/-- `sbfInterfaceFind`, by the interface that `iffp` is set to. -/
def findInterface (table : List Interface) (name : CString) : Option Interface :=
  ((pattern cut name.chars).bind fun (mask, address) => matching table mask address).or
    (named table name)

/-- `sbfInterface_find` -/
def find (table : List Interface) (name : CString) : UInt32 :=
  ((findInterface cut table name).map mAddress).getD 0

/-- The loop of `sbfInterface_findOne`, with the name that it reports. -/
def findFirst (table : List Interface) : List CString → UInt32 × Option CString
  | [] => (0, none)
  | next :: rest =>
      match findInterface cut table next with
      | none => findFirst table rest
      | some iff =>
          if iff.mAddress ≠ 0 then (iff.mAddress, some iff.mName) else findFirst table rest

/-- `sbfInterface_findOne` -/
def findOne (table : List Interface) (names : CString) : UInt32 × Option CString :=
  findFirst cut table (names.split comma)

end Find

/-- The octets of an address in network order. -/
def octets (address : UInt32) : List Nat :=
  (List.range 4).map fun i => address.toNat / 256 ^ i % 256

/-- Decimal digits of a number below 256. -/
def isOctet (part : Bytes) : Bool :=
  part ≠ [] && part.all (isDigit 10) && magnitude 10 part < 256

/-- One to four decimal numbers below 256, joined by dots. -/
def dotted (name : Bytes) : Option (List Nat) :=
  let parts := name.splitOn dot
  if parts.length ≤ 4 ∧ parts.all isOctet then some (parts.map (magnitude 10)) else none

/-- What `sbfInterface_find` is for: the interface whose address begins with the octets of the
name, or else the one that has the name. -/
def specified (table : List Interface) (name : CString) : Option Interface :=
  match dotted name.chars with
  | none => named table name
  | some numbers =>
      (table.find? fun iff => (octets iff.mAddress).take numbers.length = numbers).or
        (named table name)

/-- The address of the interface begins with the octets. -/
def Begins (numbers : List Nat) (iff : Interface) : Prop :=
  (octets iff.mAddress).take numbers.length = numbers

instance (numbers : List Nat) (iff : Interface) : Decidable (iff.Begins numbers) :=
  inferInstanceAs (Decidable ((octets iff.mAddress).take numbers.length = numbers))

/-- The mask of so many octets. -/
def maskOf : Nat → UInt32
  | 1 => 0xff000000
  | 2 => 0xffff0000
  | 3 => 0xffffff00
  | _ => 0xffffffff

theorem masked_toNat (n : UInt32) {count : Nat} (low : 1 ≤ count) (high : count ≤ 4) :
    (n &&& ntohl (maskOf count)).toNat = n.toNat % 256 ^ count := by
  have width : (ntohl (maskOf count)).toNat = 2 ^ (8 * count) - 1 := by
    match count, low, high with
    | 1, _, _ | 2, _, _ | 3, _, _ | 4, _, _ => decide
  rw [UInt32.toNat_and, width, Nat.and_two_pow_sub_one_eq_mod, Nat.pow_mul]

/-- The number that octets stand for, the lowest first. -/
def sum (numbers : List Nat) : Nat := numbers.foldr (fun octet rest => octet + 256 * rest) 0

theorem sum_lt {numbers : List Nat} (small : ∀ octet ∈ numbers, octet < 256) :
    sum numbers < 256 ^ numbers.length := by
  induction numbers with
  | nil => exact Nat.one_pos
  | cons octet rest ih =>
      have below := ih fun other member => small other (List.mem_cons_of_mem _ member)
      have first := small octet List.mem_cons_self
      change octet + 256 * sum rest < 256 ^ (rest.length + 1)
      rw [Nat.pow_succ]
      omega

theorem mod_sum_iff (n : Nat) {numbers : List Nat} (small : ∀ octet ∈ numbers, octet < 256) :
    n % 256 ^ numbers.length = sum numbers ↔
      (List.range numbers.length).map (fun i => n / 256 ^ i % 256) = numbers := by
  induction numbers generalizing n with
  | nil => simp [sum, Nat.mod_one]
  | cons octet rest ih =>
      have first := small octet List.mem_cons_self
      have later := ih (n / 256) fun other member => small other (List.mem_cons_of_mem _ member)
      have shift : ∀ i, n / 256 ^ (i + 1) % 256 = n / 256 / 256 ^ i % 256 := by
        intro i
        rw [Nat.pow_succ', Nat.div_div_eq_div_mul]
      have split : n % 256 ^ (rest.length + 1) = n % 256 + 256 * (n / 256 % 256 ^ rest.length) := by
        rw [Nat.pow_succ', Nat.mod_mul]
      have low := Nat.mod_lt n (show 0 < 256 by decide)
      rw [List.length_cons, List.range_succ_eq_map, List.map_cons, List.map_map, List.cons.injEq,
        Nat.pow_zero, Nat.div_one]
      simp only [Function.comp_def, Nat.succ_eq_add_one, shift]
      rw [← later, split]
      change _ = octet + 256 * sum rest ↔ _
      omega

theorem address_toNat {numbers : List UInt16} (high : numbers.length ≤ 4)
    (small : ∀ octet ∈ numbers, octet.toNat < 256) :
    (address numbers).toNat = sum (numbers.map UInt16.toNat) := by
  have whole : numbers.foldr (fun octet rest => octet.toNat + 256 * rest) 0 =
      sum (numbers.map UInt16.toNat) := by
    rw [sum, List.foldr_map]
  have below := sum_lt (List.forall_mem_map.mpr small)
  rw [List.length_map] at below
  have word : 256 ^ numbers.length ≤ 256 ^ 4 := Nat.pow_le_pow_right (by decide) high
  rw [address, whole, UInt32.toNat_ofNat']
  exact Nat.mod_eq_of_lt (Nat.lt_of_lt_of_le below word)

/-- The masked addresses are the same when the octets in front are. -/
theorem matches_iff (n : UInt32) {numbers : List UInt16} (low : 1 ≤ numbers.length)
    (high : numbers.length ≤ 4) (small : ∀ octet ∈ numbers, octet.toNat < 256) :
    n &&& ntohl (maskOf numbers.length) = address numbers &&& ntohl (maskOf numbers.length) ↔
      (octets n).take numbers.length = numbers.map UInt16.toNat := by
  have small' : ∀ octet ∈ numbers.map UInt16.toNat, octet < 256 := List.forall_mem_map.mpr small
  have below := sum_lt small'
  have same := mod_sum_iff n.toNat small'
  rw [List.length_map] at below same
  rw [← UInt32.toNat_inj, masked_toNat n low high, masked_toNat _ low high,
    address_toNat high small, Nat.mod_eq_of_lt below, same, octets, ← List.map_take,
    List.take_range, Nat.min_eq_left high]

/-- An address of four octets has them. -/
theorem octets_address {numbers : List UInt16} (four : numbers.length = 4)
    (small : ∀ octet ∈ numbers, octet.toNat < 256) :
    octets (address numbers) = numbers.map UInt16.toNat := by
  have same := (matches_iff (address numbers) (by omega) (by omega) small).mp rfl
  rwa [List.take_of_length_le (by simp [octets, four])] at same

section Leading

variable (cut : UInt64 → UInt16) (name : Bytes)

/-- The numbers below 256 that `sscanf` takes from the front of a name. -/
def leading : List UInt16 :=
  ((scanNumerals 10 name [dot, dot, dot]).map fun numeral => cut (numeral.toUnsigned 10)).takeWhile
    (· < 256)

theorem leading_length : (leading cut name).length ≤ 4 := by
  refine Nat.le_trans (List.takeWhile_prefix _).length_le ?_
  rw [List.length_map]
  exact scanNumerals_length 10 name [dot, dot, dot]

theorem leading_small : ∀ octet ∈ leading cut name, octet.toNat < 256 := by
  intro octet member
  have small := List.mem_takeWhile_imp member
  rw [decide_eq_true_eq, UInt16.lt_iff_toNat_lt] at small
  exact small

variable {cut name}

theorem le_takeWhile_iff {values : List UInt16} {count : Nat} {p : UInt16 → Bool} :
    count ≤ (values.takeWhile p).length ↔
      (values.take count).length = count ∧ (values.take count).all p = true := by
  have short := List.length_take (i := count) (l := values.takeWhile p)
  rw [List.take_takeWhile] at short
  have prefix_ := (List.takeWhile_prefix p (l := values.take count)).length_le
  have fits := List.length_take (i := count) (l := values)
  constructor
  · intro enough
    have whole : (values.take count).takeWhile p = values.take count :=
      (List.takeWhile_prefix p).eq_of_length (by omega)
    refine ⟨by rw [← whole]; omega, ?_⟩
    rw [List.all_eq_true]
    exact List.takeWhile_eq_self_iff.mp whole
  · rintro ⟨length, all⟩
    rw [List.takeWhile_eq_self_iff.mpr (List.all_eq_true.mp all)] at short
    omega

/-- An attempt is made good by so many leading numbers. -/
theorem attempt_leading {count : Nat} (few : count ≤ 3) (mask : UInt32) :
    attempt cut name (count + 1) mask =
      if count + 1 ≤ (leading cut name).length then
        some (ntohl mask, address ((leading cut name).take (count + 1)))
      else none := by
  have dots : List.replicate count dot = [dot, dot, dot].take count := by
    change _ = (List.replicate 3 dot).take count
    rw [List.take_replicate, Nat.min_eq_left few]
  have length : ([dot, dot, dot].take count).length = count := by
    rw [List.length_take]
    exact Nat.min_eq_left few
  simp only [attempt, leading, Nat.add_sub_cancel, dots, scan_numerals, scanNumerals_take,
    le_takeWhile_iff, List.take_takeWhile, ← List.map_take, List.length_map, length]
  by_cases all : ((scanNumerals 10 name [dot, dot, dot]).take (count + 1)).length = count + 1
  · simp only [all, ↓reduceIte, List.map_map, Function.comp_def, true_and]
    split
    · rename_i small
      rw [List.takeWhile_eq_self_iff.mpr (List.all_eq_true.mp small)]
    · rfl
  · simp only [if_neg all, if_neg (fun both => all (And.left both))]

/-- A name is taken for the numbers below 256 in front of it. -/
theorem pattern_leading : pattern cut name =
    if leading cut name = [] then none
    else some (ntohl (maskOf (leading cut name).length), address (leading cut name)) := by
  have few := leading_length cut name
  have whole : (leading cut name).take (leading cut name).length = leading cut name :=
    List.take_length
  rw [pattern, attempt_leading (by decide : 3 ≤ 3), attempt_leading (by decide : 2 ≤ 3),
    attempt_leading (by decide : 1 ≤ 3), attempt_leading (by decide : 0 ≤ 3)]
  simp only [← List.length_eq_zero_iff]
  generalize length : (leading cut name).length = count at few whole
  match count, few with
  | 0, _ => rfl
  | 1, _ | 2, _ | 3, _ | 4, _ =>
      simp only [Nat.reduceAdd, Nat.reduceLeDiff, ↓reduceIte, whole, Option.none_or, Option.some_or,
        Nat.reduceEqDiff, maskOf]

/-- The interface for the leading numbers, or else the one with the name. -/
theorem findInterface_leading (table : List Interface) (name : CString) :
    findInterface cut table name =
      (if leading cut name.chars = [] then none
        else table.find? fun iff => iff.Begins ((leading cut name.chars).map UInt16.toNat)).or
        (named table name) := by
  rw [findInterface, pattern_leading]
  by_cases nothing : leading cut name.chars = []
  · simp only [if_pos nothing, Option.bind_none]
  · have some_ := List.length_pos_iff.mpr nothing
    have same : ∀ iff : Interface,
        decide (iff.mAddress &&& ntohl (maskOf (leading cut name.chars).length) =
        address (leading cut name.chars) &&& ntohl (maskOf (leading cut name.chars).length)) =
        decide (iff.Begins ((leading cut name.chars).map UInt16.toNat)) := by
      intro iff
      rw [decide_eq_decide, matches_iff _ some_ (leading_length _ _) (leading_small _ _), Begins,
        List.length_map]
    simp only [if_neg nothing, Option.bind_some, matching, same]

end Leading

section Dotted

variable {parts : List Bytes}

theorem isOctet_iff {part : Bytes} : isOctet part = true ↔
    part ≠ [] ∧ (∀ c ∈ part, isDigit 10 c = true) ∧ magnitude 10 part < 256 := by
  simp [isOctet, and_assoc]

theorem dot_digit : isDigit 10 dot = false := by decide

/-- Each part is converted. -/
theorem scanNumerals_parts (some_ : parts ≠ []) (all : ∀ part ∈ parts, isOctet part = true)
    {count : Nat} (few : parts.length ≤ count + 1) :
    scanNumerals 10 ([dot].intercalate parts) (List.replicate count dot) =
      parts.map fun part => ⟨false, part⟩ := by
  induction parts generalizing count with
  | nil => exact absurd rfl some_
  | cons part rest ih =>
      obtain ⟨nonempty, digits, _⟩ := isOctet_iff.mp (all part List.mem_cons_self)
      have read : ∀ text : Bytes, (∀ c ∈ text.head?, isDigit 10 c = false) →
          readNumeral 10 (part ++ text) = some (⟨false, part⟩, text) := by
        intro text stops
        exact readNumeral_ten_iff.mpr ⟨⟨[], [], rfl, nofun, Or.inl rfl, nonempty, digits⟩, stops⟩
      cases rest with
      | nil =>
          have alone := read [] nofun
          rw [List.append_nil] at alone
          rw [show [dot].intercalate [part] = part by simp [List.intercalate]]
          cases count with
          | zero => simp only [List.replicate_zero, scanNumerals, alone, List.map_cons, List.map_nil]
          | succ count =>
              simp only [List.replicate_succ, scanNumerals, alone, List.map_cons, List.map_nil]
      | cons next others =>
          have joined : [dot].intercalate (part :: next :: others) =
              part ++ dot :: [dot].intercalate (next :: others) := by
            simp [List.intercalate]
          have here := read (dot :: [dot].intercalate (next :: others)) (by
            intro c head
            cases head
            exact dot_digit)
          cases count with
          | zero =>
              rw [List.length_cons, List.length_cons] at few
              omega
          | succ count =>
              have later := ih (List.cons_ne_nil next others)
                (fun other member => all other (List.mem_cons_of_mem _ member))
                (Nat.le_of_succ_le_succ few)
              simp only [joined, List.replicate_succ, scanNumerals, here, ↓reduceIte, later,
                List.map_cons]

variable {cut : UInt64 → UInt16} {name : Bytes} {numbers : List Nat}

/-- A dotted name is taken for the octets that it gives. -/
theorem leading_dotted (exact_ : ∀ n : UInt64, n.toNat < 2 ^ 16 → (cut n).toNat = n.toNat)
    (given : dotted name = some numbers) :
    leading cut name ≠ [] ∧ (leading cut name).map UInt16.toNat = numbers := by
  unfold dotted at given
  dsimp only at given
  split at given
  case isFalse => cases given
  case isTrue both =>
      cases given
      have some_ := List.splitOn_ne_nil dot name
      have all : ∀ part ∈ name.splitOn dot, isOctet part = true := List.all_eq_true.mp both.2
      have octet : ∀ part ∈ name.splitOn dot,
          (cut (Numeral.toUnsigned 10 ⟨false, part⟩)).toNat = magnitude 10 part := by
        intro part member
        have small := (isOctet_iff.mp (all part member)).2.2
        have value : Numeral.toUnsigned 10 ⟨false, part⟩ = UInt64.ofNat (magnitude 10 part) := by
          simp only [Numeral.toUnsigned, Bool.false_eq_true, ↓reduceIte]
          exact if_neg (by omega)
        have exactly : (UInt64.ofNat (magnitude 10 part)).toNat = magnitude 10 part := by
          rw [UInt64.toNat_ofNat', Nat.mod_eq_of_lt (by omega)]
        rw [value, exact_ _ (by omega), exactly]
      have converted := scanNumerals_parts some_ all (both.1 : _ ≤ 3 + 1)
      rw [List.intercalate_splitOn] at converted
      have whole : leading cut name =
          (name.splitOn dot).map fun part => cut (Numeral.toUnsigned 10 ⟨false, part⟩) := by
        change (((scanNumerals 10 name (List.replicate 3 dot)).map _).takeWhile _) = _
        rw [converted, List.map_map, List.takeWhile_eq_self_iff.mpr]
        · rfl
        · intro value member
          obtain ⟨part, inside, rfl⟩ := List.mem_map.mp member
          rw [decide_eq_true_eq, UInt16.lt_iff_toNat_lt]
          exact (octet part inside).trans_lt (isOctet_iff.mp (all part inside)).2.2
      refine ⟨?_, ?_⟩
      · rw [whole]
        exact fun nothing => some_ (List.map_eq_nil_iff.mp nothing)
      · rw [whole, List.map_map]
        exact List.map_congr_left octet

end Dotted

section Lookup

variable {cut : UInt64 → UInt16} {table : List Interface}

/-- The name is one to four decimal numbers below 256 joined by dots, or the numbers below 256
in front of it lead to no other address than its whole text does. -/
def Follows (cut : UInt64 → UInt16) (table : List Interface) (name : CString) : Prop :=
  dotted name.chars ≠ none ∨ leading cut name.chars = [] ∨
    ∀ iff, table.find? (fun iff => iff.Begins ((leading cut name.chars).map UInt16.toNat)) =
      some iff → iff.mAddress = ((named table name).map mAddress).getD 0

/-- The first of the names that has a result, and its interface. -/
def FindsOne (cut : UInt64 → UInt16) (table : List Interface) : Prop :=
  ∀ names, findOne cut table names =
    match (names.split comma).find? fun next => find cut table next ≠ 0 with
    | none => (0, none)
    | some next => (find cut table next, (findInterface cut table next).map mName)

theorem findFirst_first (names : List CString) : findFirst cut table names =
    match names.find? fun next => find cut table next ≠ 0 with
    | none => (0, none)
    | some next => (find cut table next, (findInterface cut table next).map mName) := by
  induction names with
  | nil => rfl
  | cons next rest ih =>
      rw [findFirst, List.find?_cons]
      cases found : findInterface cut table next with
      | none =>
          have zero : find cut table next = 0 := by rw [find, found]; rfl
          simp only [zero, ne_eq, not_true_eq_false, decide_false, ih]
      | some iff =>
          have address : find cut table next = iff.mAddress := by rw [find, found]; rfl
          by_cases zero : iff.mAddress = 0
          · simp only [address, zero, ne_eq, not_true_eq_false, decide_false, ↓reduceIte, ih]
          · simp only [address, zero, ne_eq, not_false_eq_true, decide_true, ↓reduceIte, found,
              Option.map_some]

theorem find_specified_iff (exact_ : ∀ n : UInt64, n.toNat < 2 ^ 16 → (cut n).toNat = n.toNat)
    (name : CString) :
    find cut table name = ((specified table name).map mAddress).getD 0 ↔
      Follows cut table name := by
  unfold find
  rw [findInterface_leading]
  cases given : dotted name.chars with
  | some numbers =>
      obtain ⟨some_, same⟩ := leading_dotted exact_ given
      refine iff_of_true ?_ (Or.inl (by rw [given]; exact Option.some_ne_none numbers))
      rw [if_neg some_, same, specified, given]
      rfl
  | none =>
      have none_ : specified table name = named table name := by rw [specified, given]
      rw [Follows, none_, given]
      by_cases nothing : leading cut name.chars = []
      · rw [if_pos nothing]
        exact iff_of_true rfl (Or.inr (Or.inl nothing))
      · rw [if_neg nothing]
        simp only [nothing, ne_eq, not_true_eq_false, false_or]
        cases found : table.find? fun iff =>
            iff.Begins ((leading cut name.chars).map UInt16.toNat) with
        | none => simp only [Option.none_or, reduceCtorEq, false_implies, implies_true]
        | some iff =>
            simp only [Option.some_or, Option.map_some, Option.getD_some, Option.some.injEq,
              forall_eq']

/-- A name that is not dotted is taken for the numbers in front of it all the same. -/
theorem find_follows_iff (exact_ : ∀ n : UInt64, n.toNat < 2 ^ 16 → (cut n).toNat = n.toNat)
    (table : List Interface) (name : CString) :
    (find cut table name = ((specified table name).map mAddress).getD 0 ∧ FindsOne cut table) ↔
      Follows cut table name := by
  rw [find_specified_iff exact_]
  exact and_iff_left fun names => findFirst_first (names.split comma)

theorem cut_exact (n : UInt64) (small : n.toNat < 2 ^ 16) : n.toUInt16.toNat = n.toNat := by
  rw [UInt64.toNat_toUInt16, Nat.mod_eq_of_lt small]

/-- `eth0` has 10.0.0.1. -/
theorem find_follows_dotted :
    find UInt64.toUInt16 [⟨⟨[101, 116, 104, 48], by decide⟩, 0x0100000a⟩] ⟨[49, 48], by decide⟩ =
        ((specified [⟨⟨[101, 116, 104, 48], by decide⟩, 0x0100000a⟩]
          ⟨[49, 48], by decide⟩).map mAddress).getD 0 ∧
      FindsOne UInt64.toUInt16 [⟨⟨[101, 116, 104, 48], by decide⟩, 0x0100000a⟩] :=
  (find_follows_iff cut_exact [⟨⟨[101, 116, 104, 48], by decide⟩, 0x0100000a⟩]
    ⟨[49, 48], by decide⟩).mpr (Or.inl (by decide))

/-- `10.300` is taken for `10`. -/
theorem find_malformed :
    dotted [49, 48, 46, 51, 48, 48] = none ∧
      specified [⟨⟨[101, 116, 104, 48], by decide⟩, 0x0100000a⟩]
        ⟨[49, 48, 46, 51, 48, 48], by decide⟩ = none ∧
      find UInt64.toUInt16 [⟨⟨[101, 116, 104, 48], by decide⟩, 0x0100000a⟩]
        ⟨[49, 48, 46, 51, 48, 48], by decide⟩ = 0x0100000a := by
  decide

end Lookup

end Interface

end Sbf
