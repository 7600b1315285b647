import Sbf.GuidText
import Sbf.InterfaceFind

set_option autoImplicit false

/-! What is stored of a string that is refused, for addresses and GUIDs. -/

namespace Sbf

open Octets

/-- A `struct sockaddr_in`, with its port and address in network order. -/
structure SockaddrIn where
  sin_family : UInt16
  sin_port : UInt16
  sin_addr : UInt32
deriving DecidableEq, Repr

/-- `ntohs` and `htons` of a little-endian machine. -/
def ntohs (n : UInt16) : UInt16 := UInt16.ofNat (n.toNat % 256 * 256 + n.toNat / 256)

theorem ntohs_ntohs (n : UInt16) : ntohs (ntohs n) = n := by
  have small := n.toNat_lt
  have swapped : n.toNat % 256 * 256 + n.toNat / 256 < 2 ^ 16 ∧
      (n.toNat % 256 * 256 + n.toNat / 256) % 256 = n.toNat / 256 ∧
      (n.toNat % 256 * 256 + n.toNat / 256) / 256 = n.toNat % 256 := by omega
  apply UInt16.toNat_inj.mp
  rw [ntohs, ntohs, UInt16.toNat_ofNat', UInt16.toNat_ofNat', Nat.mod_eq_of_lt swapped.1,
    swapped.2.1, swapped.2.2]
  omega

namespace Interface

open McastTopicResolver (address dot)

def colon : UInt8 := 58

/-- `AF_INET` -/
def afInet : UInt16 := 2

/-- `inet_pton` of `AF_INET`. Zeros in front of a number, of which its standard says nothing,
are refused, as the C libraries do. -/
def inetPton (s : Bytes) : Option UInt32 :=
  let parts := s.splitOn dot
  if parts.length = 4 ∧
      parts.all fun part => isOctet part && (part.length = 1 || part.head? ≠ some 48)
  then some (address (parts.map fun part => UInt16.ofNat (magnitude 10 part)))
  else none

/-- The port that a text is taken for. -/
def portNumber (text : Bytes) : Option UInt16 :=
  let (ul, endptr) := strtoul text
  if ul = 0 ∨ 65535 < ul ∨ endptr ≠ [] then none else some ul.toUInt16

/-- `sbfInterface_parseAddress`, with what it leaves in `*sin`. -/
def parseAddress (s : CString) (sin : SockaddrIn) : Option Errno × SockaddrIn :=
  match s.behind colon with
  | none => (some .einval, sin)
  | some port =>
      if port.chars = [] then (some .einval, sin)
      else
        match portNumber port.chars with
        | none => (some .erange, sin)
        | some ul =>
            let sin := { sin with sin_port := ntohs ul }
            match inetPton (s.upTo colon).chars with
            | none => (some .einval, sin)
            | some sin_addr => (none, { sin with sin_addr, sin_family := afInet })

/-- The string is a dotted address, a `:` and a port from 1 to 65535, and these are stored. -/
def Holds (s : CString) (sin : SockaddrIn) : Prop :=
  ∃ front digits, s.chars = front ++ colon :: digits ∧
    (∃ numbers, dotted front = some numbers ∧ numbers.length = 4 ∧ octets sin.sin_addr = numbers) ∧
    digits ≠ [] ∧ (∀ c ∈ digits, isDigit 10 c = true) ∧
    1 ≤ magnitude 10 digits ∧ magnitude 10 digits ≤ 65535 ∧
    (ntohs sin.sin_port).toNat = magnitude 10 digits ∧ sin.sin_family = afInet

/-- A refused string leaves what was there, and an accepted one is what is stored. -/
def Parses (s : CString) (sin : SockaddrIn) : Prop :=
  match parseAddress s sin with
  | (some _, after) => after = sin
  | (none, after) => Holds s after

/-- Where the port is accepted, the address is too and the port is written with digits alone,
or the port is the one that is there. -/
def PortLast (s : CString) (sin : SockaddrIn) : Prop :=
  ∀ port ul, s.behind colon = some port → portNumber port.chars = some ul →
    (inetPton (s.upTo colon).chars = none → sin.sin_port = ntohs ul) ∧
      (inetPton (s.upTo colon).chars ≠ none → ∀ c ∈ port.chars, isDigit 10 c = true)

section Parts

variable {front text : Bytes} {numbers : List Nat}

theorem dotted_plain (given : dotted front = some numbers) : colon ∉ front := by
  intro inside
  unfold dotted at given
  dsimp only at given
  split at given
  case isFalse => cases given
  case isTrue both =>
      obtain ⟨part, member, found⟩ := CString.mem_splitOn_of_mem inside (by decide : colon ≠ dot)
      have all := List.all_eq_true.mp both.2 part member
      have digit := (isOctet_iff.mp all).2.1 colon found
      cases digit

/-- What `inet_pton` accepts is dotted, and it stores the octets. -/
theorem inetPton_dotted {sin_addr : UInt32} (accepted : inetPton front = some sin_addr) :
    ∃ numbers, dotted front = some numbers ∧ numbers.length = 4 ∧ octets sin_addr = numbers := by
  unfold inetPton at accepted
  dsimp only at accepted
  split at accepted
  case isFalse => cases accepted
  case isTrue both =>
      cases accepted
      obtain ⟨four, all⟩ := both
      have octet : ∀ part ∈ front.splitOn dot, isOctet part = true := by
        intro part member
        exact (Bool.and_eq_true_iff.mp (List.all_eq_true.mp all part member)).1
      have small : ∀ part ∈ front.splitOn dot, magnitude 10 part < 256 :=
        fun part member => (isOctet_iff.mp (octet part member)).2.2
      have value : ∀ part ∈ front.splitOn dot,
          (UInt16.ofNat (magnitude 10 part)).toNat = magnitude 10 part := by
        intro part member
        have below := small part member
        rw [UInt16.toNat_ofNat', Nat.mod_eq_of_lt (by omega)]
      refine ⟨(front.splitOn dot).map (magnitude 10), ?_, by rw [List.length_map, four], ?_⟩
      · unfold dotted
        dsimp only
        rw [if_pos ⟨Nat.le_of_eq four, List.all_eq_true.mpr octet⟩]
      · rw [octets_address (by rw [List.length_map, four]), List.map_map]
        · exact List.map_congr_left value
        · intro number member
          obtain ⟨part, inside, rfl⟩ := List.mem_map.mp member
          rw [value part inside]
          exact small part inside

/-- Digits alone are taken for the number that they stand for. -/
theorem strtoul_digits (some_ : text ≠ []) (digits : ∀ c ∈ text, isDigit 10 c = true) :
    strtoul text = (Numeral.toUnsigned 10 ⟨false, text⟩, []) := by
  have spelled : Spelled 10 text ⟨false, text⟩ [] :=
    ⟨[], [], (List.append_nil text).symm, nofun, Or.inl rfl, some_, digits⟩
  rw [strtoul, readNumeral_ten_iff.mpr ⟨spelled, nofun⟩]

/-- A port that is written with digits alone is their number. -/
theorem portNumber_digits {ul : UInt16} (accepted : portNumber text = some ul)
    (digits : ∀ c ∈ text, isDigit 10 c = true) :
    text ≠ [] ∧ 1 ≤ magnitude 10 text ∧ magnitude 10 text ≤ 65535 ∧
      ul.toNat = magnitude 10 text := by
  have some_ : text ≠ [] := by
    rintro rfl
    cases accepted
  refine ⟨some_, ?_⟩
  rw [portNumber, strtoul_digits some_ digits] at accepted
  dsimp only at accepted
  split at accepted
  · cases accepted
  · rename_i inside
    cases accepted
    obtain ⟨positive, high, -⟩ := not_or.mp inside |>.imp id not_or.mp
    rw [UInt64.lt_iff_toNat_lt] at high
    by_cases large : 2 ^ 64 ≤ magnitude 10 text
    · rw [Numeral.toUnsigned, if_pos large] at high
      exact absurd (by decide) high
    · have value : (Numeral.toUnsigned 10 ⟨false, text⟩).toNat = magnitude 10 text := by
        simp only [Numeral.toUnsigned, if_neg large, Bool.false_eq_true, ↓reduceIte,
          UInt64.toNat_ofNat']
        exact Nat.mod_eq_of_lt (Nat.not_le.mp large)
      have nonzero : magnitude 10 text ≠ 0 := by
        intro zero
        rw [← value] at zero
        exact positive (UInt64.toNat_inj.mp zero)
      rw [value] at high
      have few : magnitude 10 text ≤ 65535 := Nat.not_lt.mp high
      refine ⟨Nat.one_le_iff_ne_zero.mpr nonzero, few, ?_⟩
      rw [UInt64.toNat_toUInt16, value]
      exact Nat.mod_eq_of_lt (Nat.lt_succ_of_le few)

end Parts

section Parse

variable {s : CString} {sin : SockaddrIn}

theorem behind_holds {front digits : Bytes} {numbers : List Nat} {port : CString}
    (shape : s.chars = front ++ colon :: digits) (given : dotted front = some numbers)
    (cut : s.behind colon = some port) : port.chars = digits := by
  have plain : 0 ∉ front := fun zero => s.plain (shape ▸ List.mem_append_left _ zero)
  have plain' : 0 ∉ digits := fun zero =>
    s.plain (shape ▸ List.mem_append_right _ (List.mem_cons_of_mem _ zero))
  let whole : CString := ⟨front, plain⟩
  have found : s.behind colon = some ⟨digits, plain'⟩ :=
    CString.behind_cut (dotted_plain given : colon ∉ whole.chars) shape
  rw [cut, Option.some.injEq] at found
  rw [found]

/-- Nothing is stored of a string that is refused before its port is. -/
theorem parses_of_unchanged {error : Errno} (refused : parseAddress s sin = (some error, sin)) :
    Parses s sin := by
  rw [Parses, refused]

variable {port : CString} {ul : UInt16}

/-- What is done with the port that was accepted. -/
theorem parseAddress_port (cut : s.behind colon = some port)
    (number : portNumber port.chars = some ul) :
    parseAddress s sin =
      match inetPton (s.upTo colon).chars with
      | none => (some .einval, { sin with sin_port := ntohs ul })
      | some sin_addr =>
          (none, { sin with sin_port := ntohs ul, sin_addr, sin_family := afInet }) := by
  have some_ : port.chars ≠ [] := by
    intro nothing
    rw [nothing] at number
    cases number
  rw [parseAddress, cut]
  dsimp only
  rw [if_neg some_, number]

/-- A string whose parts are all accepted is stored right just when its port is digits alone. -/
theorem holds_iff_digits {sin_addr : UInt32} (cut : s.behind colon = some port)
    (number : portNumber port.chars = some ul)
    (address : inetPton (s.upTo colon).chars = some sin_addr) :
    Holds s ⟨afInet, ntohs ul, sin_addr⟩ ↔ ∀ c ∈ port.chars, isDigit 10 c = true := by
  constructor
  · rintro ⟨front, digits, shape, ⟨numbers, given, -, -⟩, -, decimal, -⟩
    rw [behind_holds shape given cut]
    exact decimal
  · intro decimal
    obtain ⟨numbers, given, four, stored⟩ := inetPton_dotted address
    obtain ⟨some_, positive, high, same⟩ := portNumber_digits number decimal
    refine ⟨(s.upTo colon).chars, port.chars, CString.cut_behind cut,
      ⟨numbers, given, four, stored⟩, some_, decimal, positive, high, ?_, rfl⟩
    rw [ntohs_ntohs]
    exact same

/-- Of a string with one port there is one thing to say. -/
theorem portLast_iff (cut : s.behind colon = some port)
    (number : portNumber port.chars = some ul) :
    PortLast s sin ↔
      (inetPton (s.upTo colon).chars = none → sin.sin_port = ntohs ul) ∧
        (inetPton (s.upTo colon).chars ≠ none → ∀ c ∈ port.chars, isDigit 10 c = true) := by
  refine ⟨fun all => all port ul cut number, ?_⟩
  intro here port' ul' same accepted
  rw [cut] at same
  cases same
  rw [number] at accepted
  cases accepted
  exact here

theorem parses_iff (s : CString) (sin : SockaddrIn) : Parses s sin ↔ PortLast s sin := by
  cases cut : s.behind colon with
  | none =>
      have refused : parseAddress s sin = (some .einval, sin) := by rw [parseAddress, cut]
      refine iff_of_true (parses_of_unchanged refused) ?_
      intro port' ul' same
      rw [cut] at same
      cases same
  | some port =>
      cases number : portNumber port.chars with
      | none =>
          have refused : ∃ error, parseAddress s sin = (some error, sin) := by
            rw [parseAddress, cut]
            dsimp only
            rw [number]
            split
            · exact ⟨.einval, rfl⟩
            · exact ⟨.erange, rfl⟩
          obtain ⟨error, refused⟩ := refused
          refine iff_of_true (parses_of_unchanged refused) ?_
          intro port' ul' same accepted
          rw [cut] at same
          cases same
          rw [number] at accepted
          cases accepted
      | some ul =>
          rw [portLast_iff cut number, Parses, parseAddress_port cut number]
          cases address : inetPton (s.upTo colon).chars with
          | none =>
              obtain ⟨family, before, addr⟩ := sin
              simp only [SockaddrIn.mk.injEq, true_and, and_true, ne_eq, not_true_eq_false,
                false_implies, forall_const, eq_comm]
          | some sin_addr =>
              simp only [reduceCtorEq, false_implies, true_and, ne_eq, not_false_eq_true,
                forall_const]
              exact holds_iff_digits cut number address

end Parse

end Interface

namespace Guid

/-- The four parts. -/
def parts (guid : Guid) : List UInt64 :=
  [guid.fixed.1, guid.fixed.2.1, guid.fixed.2.2, guid.counter]

/-- A refused string leaves what was there. -/
def Keeps (guid : Guid) (s : CString) : Prop :=
  (fromString guid s).1 = 0 → (fromString guid s).2 = guid

/-- All four numbers are there, or those that are in front are the parts already. -/
def AllOrSame (guid : Guid) (s : CString) : Prop :=
  (converted s).length = 4 ∨ converted s <+: guid.parts

theorem stored_prefix {guid : Guid} {numbers : List UInt64} (few : numbers.length ≤ 4) :
    guid.stored numbers = guid ↔ numbers <+: guid.parts := by
  obtain ⟨⟨first, second, third⟩, counter⟩ := guid
  match numbers, few with
  | [], _ => simp [stored, parts]
  | [a], _ => simp [stored, parts]
  | [a, b], _ => simp [stored, parts]
  | [a, b, c], _ => simp [stored, parts]
  | [a, b, c, d], _ => simp [stored, parts, and_assoc]

theorem keeps_iff (guid : Guid) (s : CString) : Keeps guid s ↔ AllOrSame guid s := by
  have few : (converted s).length ≤ 4 := by
    rw [converted, List.length_map]
    exact scanNumerals_length 16 s.chars [slash, slash, slash]
  rw [Keeps, AllOrSame, ← stored_prefix few, fromString]
  by_cases four : (converted s).length = 4
  · simp [four]
  · simp [four]

end Guid

/-- A refused string leaves what was there just when no part of it was stored before the part
that is refused, and ports are read right just when they are digits. -/
theorem Interface.parseAddress_fromString_iff (s : CString) (sin : SockaddrIn) (text : CString)
    (guid : Guid) :
    (Interface.Parses s sin ↔ Interface.PortLast s sin) ∧
      (Guid.Keeps guid text ↔ Guid.AllOrSame guid text) :=
  ⟨Interface.parses_iff s sin, Guid.keeps_iff guid text⟩

/-- `x:80`, with a port of zero before. -/
theorem Interface.parseAddress_changed :
    Interface.parseAddress ⟨[120, 58, 56, 48], by decide⟩ ⟨0, 0, 0⟩ =
        (some .einval, ⟨0, 0x5000, 0⟩) ∧
      ¬ Interface.Parses ⟨[120, 58, 56, 48], by decide⟩ ⟨0, 0, 0⟩ := by
  have parsed : Interface.parseAddress ⟨[120, 58, 56, 48], by decide⟩ ⟨0, 0, 0⟩ =
      (some .einval, ⟨0, 0x5000, 0⟩) := by decide
  refine ⟨parsed, ?_⟩
  rw [Interface.Parses, parsed]
  decide

end Sbf
