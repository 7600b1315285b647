import Sbf.NumberText
import Sbf.RequestGuid

set_option autoImplicit false

/-! GUIDs as text. -/

namespace Sbf

open Octets

namespace Guid

def slash : UInt8 := 47

/-- `SBF_GUID_STRING_SIZE` -/
def stringSize : Nat := 68

/-- The parts where `sscanf` has stored the numbers that it has converted. -/
def stored (guid : Guid) (numbers : List UInt64) : Guid where
  fixed := (numbers[0]?.getD guid.fixed.1, numbers[1]?.getD guid.fixed.2.1,
    numbers[2]?.getD guid.fixed.2.2)
  counter := numbers[3]?.getD guid.counter

/-- The numbers in front of `%llx/%llx/%llx/%llx` that a text has. -/
def converted (s : CString) : List UInt64 :=
  (scanNumerals 16 s.chars [slash, slash, slash]).map (Numeral.toUnsigned 16)

/-- `sbfGuid_fromString` -/
def fromString (guid : Guid) (s : CString) : Nat × Guid :=
  (if (converted s).length ≠ 4 then 0 else 1, guid.stored (converted s))

/-- The text of `%016llx/%016llx/%llx/%llx`. -/
def text (guid : Guid) : Bytes :=
  writeNumber 16 16 guid.fixed.1.toNat ++ slash :: (writeNumber 16 16 guid.fixed.2.1.toNat ++
    slash :: (writeNumber 16 0 guid.fixed.2.2.toNat ++
      slash :: writeNumber 16 0 guid.counter.toNat))

section Text

variable (guid : Guid)

theorem slash_digit : isDigit 16 slash = false := by decide

theorem isDigit_number (width : Nat) (part : UInt64) :
    ∀ c ∈ writeNumber 16 width part.toNat, isDigit 16 c = true :=
  isDigit_writeNumber (by decide) (by decide) width part.toNat

theorem text_plain : 0 ∉ guid.text := by
  intro zero
  have number : ∀ (width : Nat) (part : UInt64), 0 ∉ writeNumber 16 width part.toNat := by
    intro width part inside
    have digit := isDigit_number width part 0 inside
    cases digit
  have apart : (0 : UInt8) ≠ slash := by decide
  simp only [text, List.mem_append, List.mem_cons, number, apart, or_self] at zero

/-- `sbfGuid_toStringBuffer`, by the string that is left in the buffer. -/
def toStringBuffer (len : Nat) : CString :=
  ⟨guid.text.take (len - 1), fun zero => guid.text_plain (List.mem_of_mem_take zero)⟩

/-- The longest text and its end fill a buffer of `SBF_GUID_STRING_SIZE`. -/
theorem text_length : guid.text.length < stringSize := by
  have number : ∀ (padding : Nat) (part : UInt64), padding ≤ 16 →
      (writeNumber 16 padding part.toNat).length ≤ 16 := by
    intro padding part few
    have short := writeNumber_length (by decide : 1 < 16) (by decide : 1 ≤ 16) part.toNat_lt
      padding
    rwa [Nat.max_eq_right few] at short
  have first := number 16 guid.fixed.1 (Nat.le_refl 16)
  have second := number 16 guid.fixed.2.1 (Nat.le_refl 16)
  have third := number 0 guid.fixed.2.2 (by decide)
  have fourth := number 0 guid.counter (by decide)
  simp only [text, stringSize, List.length_append, List.length_cons]
  omega

theorem toUnsigned_number (width : Nat) (part : UInt64) :
    Numeral.toUnsigned 16 ⟨false, writeNumber 16 width part.toNat⟩ = part := by
  have fits := part.toNat_lt
  simp only [Numeral.toUnsigned, magnitude_writeNumber (by decide : 1 < 16) (by decide),
    if_neg (Nat.not_le.mpr fits), Bool.false_eq_true, ↓reduceIte, UInt64.ofNat_toNat]

/-- A number and the separator behind it are passed over. -/
theorem scanNumerals_number (width : Nat) (part : UInt64) (rest : Bytes) (literals : List UInt8) :
    scanNumerals 16 (writeNumber 16 width part.toNat ++ slash :: rest) (slash :: literals) =
      ⟨false, writeNumber 16 width part.toNat⟩ :: scanNumerals 16 rest literals := by
  have stops : ∀ c ∈ (slash :: rest).head?, isDigit 16 c = false ∧ c ≠ 120 ∧ c ≠ 88 := by
    intro c head
    cases head
    exact ⟨slash_digit, by decide, by decide⟩
  have read := readNumeral_writeNumber (by decide : 1 < 16) (by decide) width part.toNat stops
  simp only [scanNumerals, read, ↓reduceIte]

theorem converted_text {s : CString} (same : s.chars = guid.text) :
    converted s = [guid.fixed.1, guid.fixed.2.1, guid.fixed.2.2, guid.counter] := by
  have last : readNumeral 16 (writeNumber 16 0 guid.counter.toNat ++ []) =
      some (⟨false, writeNumber 16 0 guid.counter.toNat⟩, []) :=
    readNumeral_writeNumber (by decide) (by decide) 0 guid.counter.toNat nofun
  rw [List.append_nil] at last
  have stop : scanNumerals 16 (writeNumber 16 0 guid.counter.toNat) [] =
      [⟨false, writeNumber 16 0 guid.counter.toNat⟩] := by
    simp only [scanNumerals, last]
  simp only [converted, same, text, scanNumerals_number, stop, List.map_cons, List.map_nil,
    toUnsigned_number]

end Text

/-- A GUID's text fits, and is read back as that GUID. -/
theorem fromString_toStringBuffer (guid : Guid) (len : Nat) (room : stringSize ≤ len) :
    guid.text.length < len ∧ (guid.toStringBuffer len).chars = guid.text ∧
      (∀ before, fromString before (guid.toStringBuffer len) = (1, guid)) ∧
      ∀ other, toStringBuffer other len = guid.toStringBuffer len → other = guid := by
  have whole : ∀ guid : Guid, (guid.toStringBuffer len).chars = guid.text := by
    intro guid
    have short := guid.text_length
    exact List.take_of_length_le (by omega)
  have back : ∀ guid before : Guid, fromString before (guid.toStringBuffer len) = (1, guid) := by
    intro guid before
    rw [fromString, guid.converted_text (whole guid)]
    rfl
  refine ⟨Nat.lt_of_lt_of_le guid.text_length room, whole guid, back guid, ?_⟩
  intro other same
  have both : (1, other) = (1, guid) := by
    rw [← back other guid, ← back guid guid, same]
  exact (Prod.mk.inj both).2

/-- The longest text in the smallest of these buffers. -/
theorem fromString_longest :
    fromString ⟨(0, 0, 0), 0⟩ (toStringBuffer ⟨(1, 2, 0xffffffffffffffff), 0xffffffffffffffff⟩ 68) =
      (1, ⟨(1, 2, 0xffffffffffffffff), 0xffffffffffffffff⟩) :=
  (fromString_toStringBuffer ⟨(1, 2, 0xffffffffffffffff), 0xffffffffffffffff⟩ 68
    (Nat.le_refl 68)).2.2.1 ⟨(0, 0, 0), 0⟩

end Guid

end Sbf
