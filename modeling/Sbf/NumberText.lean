import Mathlib.Data.Nat.Digits.Lemmas
import Mathlib.Data.UInt
import Sbf.StringParts

set_option autoImplicit false

/-! Numbers as text: their digits, and how the C library reads and writes them. -/
namespace Octets

/-- The value of a digit in the bases up to sixteen. -/
def digitValue (c : UInt8) : Option Nat :=
  if 48 ≤ c && c ≤ 57 then some (c.toNat - 48)
  else if 97 ≤ c && c ≤ 102 then some (c.toNat - 87)
  else if 65 ≤ c && c ≤ 70 then some (c.toNat - 55)
  else none

def isDigit (base : Nat) (c : UInt8) : Bool := (digitValue c).any (· < base)

theorem digit_ten_iff {c : UInt8} : isDigit 10 c = true ↔ 48 ≤ c.toNat ∧ c.toNat ≤ 57 := by
  have octet := c.toNat_lt
  simp only [isDigit, digitValue, UInt8.le_iff_toNat_le, UInt8.reduceToNat, Bool.and_eq_true,
    decide_eq_true_eq]
  split
  case isTrue range =>
      rw [Option.any_some, decide_eq_true_eq]
      omega
  case isFalse out =>
      refine iff_of_false ?_ out
      split
      · rw [Option.any_some, decide_eq_true_eq]
        omega
      · split
        · rw [Option.any_some, decide_eq_true_eq]
          omega
        · exact Bool.false_ne_true

theorem digitValue_ten {c : UInt8} (digit : isDigit 10 c = true) :
    digitValue c = some (c.toNat - 48) := by
  have range := digit_ten_iff.mp digit
  simp only [digitValue, UInt8.le_iff_toNat_le, UInt8.reduceToNat, Bool.and_eq_true,
    decide_eq_true_eq]
  rw [if_pos range]

/-- The number that digits stand for, the first of them the highest. -/
def magnitude (base : Nat) (digits : Bytes) : Nat :=
  digits.foldl (fun n c => base * n + (digitValue c).getD 0) 0

/-- A sign and digits. -/
structure Numeral where
  negative : Bool
  digits : Bytes
deriving DecidableEq, Repr

namespace Numeral

variable (base : Nat) (numeral : Numeral)

/-- The number itself. -/
def toInt : Int :=
  if numeral.negative then -(magnitude base numeral.digits : Int)
  else magnitude base numeral.digits

/-- What `strtoull` makes of it: a number that does not fit becomes the largest one, and
others are negated as unsigned ones. -/
def toUnsigned : UInt64 :=
  let n := magnitude base numeral.digits
  if 2 ^ 64 ≤ n then 0xffffffffffffffff
  else if numeral.negative then 0 - UInt64.ofNat n
  else UInt64.ofNat n

end Numeral

/-- A sign in front, if there is one. -/
def takeSign : Bytes → Bool × Bytes
  | 45 :: rest => (true, rest)
  | 43 :: rest => (false, rest)
  | s => (false, s)

/-- `0x` in front of digits of base sixteen. -/
def dropPrefix (base : Nat) : Bytes → Bytes
  | 48 :: c :: rest => if base = 16 ∧ (c = 120 ∨ c = 88) then rest else 48 :: c :: rest
  | s => s

/-- Blanks, a sign and digits in front of a text, with what follows them. In base ten this
is what the functions of the `strtol` family convert; in base sixteen it is what `sscanf`
does, which does not take the zero of `0x` for a number. -/
def readNumeral (base : Nat) (s : Bytes) : Option (Numeral × Bytes) :=
  let (negative, s) := takeSign (s.dropWhile isSpace)
  let s := dropPrefix base s
  if s.takeWhile (isDigit base) = [] then none
  else some (⟨negative, s.takeWhile (isDigit base)⟩, s.dropWhile (isDigit base))

theorem digit_ge {base : Nat} {c : UInt8} (digit : isDigit base c = true) : 48 ≤ c.toNat := by
  by_contra below
  have small : c.toNat < 48 := Nat.not_le.mp below
  have value : digitValue c = none := by
    simp only [digitValue, UInt8.le_iff_toNat_le, UInt8.reduceToNat, Bool.and_eq_true,
      decide_eq_true_eq]
    rw [if_neg (by omega), if_neg (by omega), if_neg (by omega)]
  rw [isDigit, value] at digit
  cases digit

theorem isSpace_digit {base : Nat} {c : UInt8} (digit : isDigit base c = true) :
    isSpace c = false ∧ c ≠ 45 ∧ c ≠ 43 := by
  have above := digit_ge digit
  have apart : ∀ {other : UInt8}, other.toNat < 48 → c ≠ other := by
    intro other small same
    rw [same] at above
    omega
  refine ⟨?_, apart (by decide), apart (by decide)⟩
  have high : ¬ c ≤ 13 := by
    rw [UInt8.le_iff_toNat_le]
    change ¬ c.toNat ≤ 13
    omega
  have blank : c ≠ 32 := apart (by decide)
  simp [isSpace, blank, high]

/-- A sign in front of digits. -/
def Signs (negative : Bool) (sign : Bytes) : Prop :=
  sign = (if negative then [45] else []) ∨ negative = false ∧ sign = [43]

theorem takeSign_signs (s : Bytes) :
    ∃ sign, Signs (takeSign s).1 sign ∧ s = sign ++ (takeSign s).2 := by
  unfold takeSign
  split
  · exact ⟨[45], Or.inl rfl, rfl⟩
  · exact ⟨[43], Or.inr ⟨rfl, rfl⟩, rfl⟩
  · exact ⟨[], Or.inl rfl, rfl⟩

theorem takeSign_append {base : Nat} {negative : Bool} {sign : Bytes} (signs : Signs negative sign)
    {s : Bytes} (digit : ∃ c rest, s = c :: rest ∧ isDigit base c = true) :
    takeSign (sign ++ s) = (negative, s) := by
  obtain ⟨c, rest, rfl, digit⟩ := digit
  obtain ⟨_, notMinus, notPlus⟩ := isSpace_digit digit
  cases signs with
  | inl plain =>
      subst plain
      cases negative with
      | true => rfl
      | false =>
          rw [if_neg Bool.false_ne_true, List.nil_append]
          unfold takeSign
          split
          · rename_i same
            exact absurd (List.cons.inj same).1 notMinus
          · rename_i same
            exact absurd (List.cons.inj same).1 notPlus
          · rfl
  | inr plus =>
      obtain ⟨rfl, rfl⟩ := plus
      rfl

/-- A text of blanks, a sign, digits and the rest. -/
def Spelled (base : Nat) (s : Bytes) (numeral : Numeral) (rest : Bytes) : Prop :=
  ∃ blanks sign, s = blanks ++ (sign ++ (numeral.digits ++ rest)) ∧
    (∀ c ∈ blanks, isSpace c = true) ∧ Signs numeral.negative sign ∧ numeral.digits ≠ [] ∧
    ∀ c ∈ numeral.digits, isDigit base c = true

section Reads

variable {base : Nat} {s rest : Bytes} {numeral : Numeral}

/-- Digits are read up to what is none, where no prefix is in the way. -/
theorem Spelled.read (spelled : Spelled base s numeral rest)
    (plain : dropPrefix base (numeral.digits ++ rest) = numeral.digits ++ rest)
    (stops : ∀ c ∈ rest.head?, isDigit base c = false) :
    readNumeral base s = some (numeral, rest) := by
  obtain ⟨blanks, sign, rfl, blank, signs, some_, digits⟩ := spelled
  obtain ⟨first, more, shape⟩ := List.exists_cons_of_ne_nil some_
  have digit : isDigit base first = true := digits first (shape ▸ List.mem_cons_self)
  have visible : ∀ c ∈ (sign ++ (numeral.digits ++ rest)).head?, isSpace c = false := by
    intro c head
    cases signs with
    | inl same =>
        rw [same] at head
        cases shape' : numeral.negative with
        | true =>
            rw [shape', if_pos rfl] at head
            cases head
            decide
        | false =>
            rw [shape', if_neg Bool.false_ne_true, List.nil_append, shape] at head
            cases head
            exact (isSpace_digit digit).1
    | inr plus =>
        rw [plus.2] at head
        cases head
        decide
  have unblank : (blanks ++ (sign ++ (numeral.digits ++ rest))).dropWhile isSpace =
      sign ++ (numeral.digits ++ rest) := by
    rw [List.dropWhile_append_of_pos blank]
    cases front : sign ++ (numeral.digits ++ rest) with
    | nil => rfl
    | cons c text =>
        rw [front] at visible
        rw [List.dropWhile_cons_of_neg (by simp [visible c rfl])]
  have signed : takeSign (sign ++ (numeral.digits ++ rest)) =
      (numeral.negative, numeral.digits ++ rest) := by
    exact takeSign_append signs ⟨first, more ++ rest, by rw [shape]; rfl, digit⟩
  have taken : (numeral.digits ++ rest).takeWhile (isDigit base) = numeral.digits := by
    rw [List.takeWhile_append_of_pos digits]
    cases rest with
    | nil => simp
    | cons c text => simp [stops c rfl]
  have dropped : (numeral.digits ++ rest).dropWhile (isDigit base) = rest := by
    rw [List.dropWhile_append_of_pos digits]
    cases rest with
    | nil => rfl
    | cons c text => rw [List.dropWhile_cons_of_neg (by simp [stops c rfl])]
  simp only [readNumeral, unblank, signed, plain, taken, dropped, if_neg some_]

/-- No digit is the `x` of a prefix. -/
theorem dropPrefix_digits {digits : Bytes} (some_ : digits ≠ [])
    (all : ∀ c ∈ digits, isDigit base c = true)
    (other : ∀ c ∈ rest.head?, c ≠ 120 ∧ c ≠ 88) :
    dropPrefix base (digits ++ rest) = digits ++ rest := by
  have apart : ∀ c, isDigit base c = true → c ≠ 120 ∧ c ≠ 88 := by
    intro c digit
    constructor
    · rintro rfl
      cases digit
    · rintro rfl
      cases digit
  unfold dropPrefix
  split
  · rename_i c text same
    refine (if_neg ?_).trans same.symm
    rintro ⟨_, either⟩
    have plain : c ≠ 120 ∧ c ≠ 88 := by
      match digits, some_, all, same with
      | [_], _, _, same =>
          have behind : rest = c :: text := (List.cons.inj same).2
          exact other c (by rw [behind]; rfl)
      | _ :: next :: _, _, all, same =>
          have here : next = c := (List.cons.inj (List.cons.inj same).2).1
          exact apart c (here ▸ all next (List.mem_cons_of_mem _ List.mem_cons_self))
    cases either with
    | inl lower => exact plain.1 lower
    | inr upper => exact plain.2 upper
  · rfl

theorem dropPrefix_ten (s : Bytes) : dropPrefix 10 s = s := by
  unfold dropPrefix
  split
  · rw [if_neg (fun both => absurd both.1 (by decide))]
  · rfl

theorem readNumeral_spelled (read : readNumeral 10 s = some (numeral, rest)) :
    Spelled 10 s numeral rest ∧ ∀ c ∈ rest.head?, isDigit 10 c = false := by
  obtain ⟨sign, signs, whole⟩ := takeSign_signs (s.dropWhile isSpace)
  simp only [readNumeral, dropPrefix_ten] at read
  split at read
  · cases read
  · rename_i some_
    cases read
    refine ⟨⟨s.takeWhile isSpace, sign, ?_, ?_, signs, some_, ?_⟩, ?_⟩
    · rw [List.takeWhile_append_dropWhile, ← whole, List.takeWhile_append_dropWhile]
    · exact fun c member => List.mem_takeWhile_imp member
    · exact fun c member => List.mem_takeWhile_imp member
    · intro c head
      have stop := List.head?_dropWhile_not (isDigit 10) (takeSign (s.dropWhile isSpace)).2
      rw [head] at stop
      simpa using stop

/-- Decimal digits are read to their end. -/
theorem readNumeral_ten_iff : readNumeral 10 s = some (numeral, rest) ↔
    Spelled 10 s numeral rest ∧ ∀ c ∈ rest.head?, isDigit 10 c = false :=
  ⟨readNumeral_spelled, fun both => both.1.read (dropPrefix_ten _) both.2⟩

end Reads

/-- The numbers that `sscanf` converts with a numeric conversion, and for each of
`literals` that character and another conversion. It stops at what does not fit. -/
def scanNumerals (base : Nat) : Bytes → List UInt8 → List Numeral
  | s, [] =>
      match readNumeral base s with
      | none => []
      | some (numeral, _) => [numeral]
  | s, literal :: literals =>
      match readNumeral base s with
      | none => []
      | some (numeral, []) => [numeral]
      | some (numeral, c :: rest) =>
          if c = literal then numeral :: scanNumerals base rest literals else [numeral]

section Scans

variable (base : Nat)

theorem scanNumerals_length (s : Bytes) (literals : List UInt8) :
    (scanNumerals base s literals).length ≤ literals.length + 1 := by
  induction literals generalizing s with
  | nil =>
      rw [scanNumerals]
      split
      · exact Nat.zero_le _
      · exact Nat.le_refl _
  | cons literal literals ih =>
      rw [scanNumerals]
      split
      · exact Nat.zero_le _
      · exact Nat.le_add_left _ _
      · rename_i rest _
        split
        · exact Nat.succ_le_succ (ih rest)
        · exact Nat.le_add_left _ _

/-- Fewer literals convert the first of the numbers. -/
theorem scanNumerals_take (s : Bytes) (literals : List UInt8) (count : Nat) :
    scanNumerals base s (literals.take count) = (scanNumerals base s literals).take (count + 1) := by
  induction literals generalizing s count with
  | nil =>
      rw [List.take_nil, List.take_of_length_le]
      exact Nat.le_trans (scanNumerals_length base s []) (Nat.le_add_left _ _)
  | cons literal literals ih =>
      cases count with
      | zero =>
          rw [List.take_zero, scanNumerals, scanNumerals]
          match readNumeral base s with
          | none => rfl
          | some (numeral, []) => rfl
          | some (numeral, c :: rest) =>
              dsimp only
              split <;> rfl
      | succ count =>
          rw [List.take_succ_cons, scanNumerals, scanNumerals]
          match readNumeral base s with
          | none => rfl
          | some (numeral, []) => rfl
          | some (numeral, c :: rest) =>
              dsimp only
              split
              · rw [ih rest count, List.take_succ_cons]
              · rfl

end Scans

/-- `strtoul`, with what `endptr` is at. -/
def strtoul (s : Bytes) : UInt64 × Bytes :=
  match readNumeral 10 s with
  | none => (0, s)
  | some (numeral, rest) => (numeral.toUnsigned 10, rest)

/-- The digit for a value below sixteen. -/
def digit (n : Nat) : UInt8 := UInt8.ofNat (if n < 10 then 48 + n else 87 + n)

/-- The digits of a number, the highest first. -/
def digits (base n : Nat) : Bytes :=
  if n = 0 then [digit 0] else (Nat.digits base n).reverse.map digit

/-- The text of an unsigned conversion, with zeros in front up to a width. -/
def writeNumber (base width n : Nat) : Bytes :=
  List.replicate (width - (digits base n).length) (digit 0) ++ digits base n

section Writes

variable {base : Nat}

theorem digitValue_digit {n : Nat} (small : n < 16) : digitValue (digit n) = some n := by
  have all : ∀ n : Fin 16, digitValue (digit n) = some n.val := by decide
  exact all ⟨n, small⟩

theorem isDigit_digit {n : Nat} (small : n < base) (high : base ≤ 16) :
    isDigit base (digit n) = true := by
  rw [isDigit, digitValue_digit (by omega), Option.any_some, decide_eq_true small]

theorem digits_ne_nil (base n : Nat) : digits base n ≠ [] := by
  unfold digits
  split
  · exact List.cons_ne_nil _ _
  · rename_i some_
    intro nothing
    rw [List.map_eq_nil_iff, List.reverse_eq_nil_iff] at nothing
    exact Nat.digits_ne_nil_iff_ne_zero.mpr some_ nothing

theorem writeNumber_ne_nil (base width n : Nat) : writeNumber base width n ≠ [] :=
  fun nothing => digits_ne_nil base n (List.append_eq_nil_iff.mp nothing).2

variable (low : 1 < base) (high : base ≤ 16)
include low high

theorem isDigit_writeNumber (width n : Nat) :
    ∀ c ∈ writeNumber base width n, isDigit base c = true := by
  have zero : isDigit base (digit 0) = true := isDigit_digit (Nat.zero_lt_of_lt low) high
  intro c member
  cases List.mem_append.mp member with
  | inl padded => exact (List.eq_of_mem_replicate padded) ▸ zero
  | inr written =>
      unfold digits at written
      split at written
      · exact (List.mem_singleton.mp written) ▸ zero
      · obtain ⟨value, inside, rfl⟩ := List.mem_map.mp written
        exact isDigit_digit (Nat.digits_lt_base low (List.mem_reverse.mp inside)) high

omit low in
theorem magnitude_digits {values : List Nat} (small : ∀ value ∈ values, value < base) :
    magnitude base (values.reverse.map digit) = Nat.ofDigits base values := by
  induction values with
  | nil => rfl
  | cons value rest ih =>
      have here := small value List.mem_cons_self
      have later := ih fun other member => small other (List.mem_cons_of_mem _ member)
      rw [magnitude] at later ⊢
      rw [List.reverse_cons, List.map_append, List.foldl_append, later, List.map_singleton,
        List.foldl_cons, List.foldl_nil, digitValue_digit (by omega), Option.getD_some,
        Nat.ofDigits_cons, Nat.add_comm]

/-- What is written is the number. -/
theorem magnitude_writeNumber (width n : Nat) : magnitude base (writeNumber base width n) = n := by
  have zero : digitValue (digit 0) = some 0 := digitValue_digit (by decide)
  have padded : ∀ count, magnitude base (List.replicate count (digit 0)) = 0 := by
    intro count
    induction count with
    | zero => rfl
    | succ count ih =>
        rw [magnitude] at ih ⊢
        rw [List.replicate_succ, List.foldl_cons, zero]
        simpa only [Nat.mul_zero, Nat.zero_add, Option.getD_some] using ih
  rw [magnitude, writeNumber, List.foldl_append]
  change (digits base n).foldl _ (magnitude base (List.replicate _ (digit 0))) = n
  rw [padded]
  change magnitude base (digits base n) = n
  unfold digits
  split
  · rename_i nothing
    rw [nothing, magnitude, List.foldl_cons, List.foldl_nil, zero]
    rfl
  · rw [magnitude_digits high fun value member => Nat.digits_lt_base low member,
      Nat.ofDigits_digits]

omit high in
theorem digits_length {width n : Nat} (positive : 1 ≤ width) (fits : n < base ^ width) :
    (digits base n).length ≤ width := by
  unfold digits
  split
  · exact positive
  · rw [List.length_map, List.length_reverse]
    exact (Nat.digits_length_le_iff low n).mpr fits

omit high in
theorem writeNumber_length {width n : Nat} (positive : 1 ≤ width) (fits : n < base ^ width)
    (padding : Nat) : (writeNumber base padding n).length ≤ max padding width := by
  have short := digits_length low positive fits
  rw [writeNumber, List.length_append, List.length_replicate]
  omega

/-- A number is read back where something else than a digit follows. -/
theorem readNumeral_writeNumber (width n : Nat) {rest : Bytes}
    (stops : ∀ c ∈ rest.head?, isDigit base c = false ∧ c ≠ 120 ∧ c ≠ 88) :
    readNumeral base (writeNumber base width n ++ rest) =
      some (⟨false, writeNumber base width n⟩, rest) := by
  have all := isDigit_writeNumber low high width n
  have some_ := writeNumber_ne_nil base width n
  refine Spelled.read ⟨[], [], rfl, nofun, Or.inl rfl, some_, all⟩ ?_ fun c head => (stops c head).1
  exact dropPrefix_digits some_ all fun c head => (stops c head).2

end Writes

/-- The values of `errno` that conversions set. -/
inductive Errno where
  | einval
  | erange
deriving DecidableEq, Repr

/-- `strtoll` where `errno` is zero before: `errno`, the value and what `endptr` is at. A
number that does not fit becomes the nearest one. -/
def strtoll (s : Bytes) : Option Errno × Int64 × Bytes :=
  match readNumeral 10 s with
  | none => (none, 0, s)
  | some (numeral, rest) =>
      let n := numeral.toInt 10
      if n < -2 ^ 63 then (some .erange, Int64.minValue, rest)
      else if 2 ^ 63 ≤ n then (some .erange, Int64.maxValue, rest)
      else (none, Int64.ofInt n, rest)

end Octets
