import Mathlib.Data.List.TakeWhile

set_option autoImplicit false

/-! Checked reads of a byte buffer: little-endian words, ranges, and the
zero-terminated strings of C. A read that would leave the buffer has no value. -/
namespace Octets

abbrev Bytes := List UInt8

/-- A 16-bit word in the host order of a little-endian machine. -/
def wordBytes (word : UInt16) : Bytes :=
  [UInt8.ofNat (word.toNat % 256), UInt8.ofNat (word.toNat / 256)]

def word (low high : UInt8) : UInt16 :=
  UInt16.ofNat (low.toNat + 256 * high.toNat)

theorem word_wordBytes (w : UInt16) :
    word (UInt8.ofNat (w.toNat % 256)) (UInt8.ofNat (w.toNat / 256)) = w := by
  have small : w.toNat < 2 ^ 16 := w.toNat_lt
  apply UInt16.toNat_inj.mp
  simp only [word, UInt16.toNat_ofNat', UInt8.toNat_ofNat']
  omega

/-- `count` bytes from `start`, when all of them are inside. -/
def slice (buf : Bytes) (start count : Nat) : Option Bytes :=
  if start + count ≤ buf.length then some ((buf.drop start).take count) else none

theorem slice_inside (buf : Bytes) (start count : Nat) (inside : start + count ≤ buf.length) :
    slice buf start count = some ((buf.drop start).take count) := by
  simp only [slice, inside, ↓reduceIte]

theorem slice_middle (front middle back : Bytes) :
    slice (front ++ (middle ++ back)) front.length middle.length = some middle := by
  rw [slice_inside _ _ _ (by simp only [List.length_append]; omega),
    List.drop_left, List.take_left]

/-- The string at `start`: the bytes up to the first zero, which has to come
before the end of the buffer. -/
def cstring (buf : Bytes) (start : Nat) : Option Bytes :=
  if 0 ∈ buf.drop start then some ((buf.drop start).takeWhile (· ≠ 0)) else none

theorem cstring_isSome_iff (buf : Bytes) (start : Nat) :
    (∃ name, cstring buf start = some name) ↔ 0 ∈ buf.drop start := by
  unfold cstring
  split <;> simp_all

/-- A string whose terminator lies in a part of the buffer is read from that part. -/
theorem cstring_inside (front part back : Bytes) (terminated : 0 ∈ part) :
    cstring (front ++ (part ++ back)) front.length = some (part.takeWhile (· ≠ 0)) := by
  have stop : (part ++ back).takeWhile (· ≠ 0) = part.takeWhile (· ≠ 0) := by
    rw [List.takeWhile_append, if_neg]
    intro all
    have kept := (List.takeWhile_prefix (p := fun c : UInt8 => decide (c ≠ 0))).eq_of_length all
    have plain : 0 ∈ part.takeWhile (fun c => decide (c ≠ 0)) := by rw [kept]; exact terminated
    simpa using List.mem_takeWhile_imp plain
  simp only [cstring, List.drop_left, List.mem_append, terminated, true_or, ↓reduceIte, stop]

/-- The text in front of a terminator, whatever follows. -/
theorem takeWhile_terminated (name back : Bytes) (plain : 0 ∉ name) :
    (name ++ 0 :: back).takeWhile (· ≠ 0) = name := by
  rw [List.takeWhile_append_of_pos]
  · simp
  · intro c member
    simp only [ne_eq, decide_not, Bool.not_eq_eq_eq_not, Bool.not_true, decide_eq_false_iff_not]
    rintro rfl
    exact plain member

/-- A string without its terminator, as C functions pass it. -/
structure CString where
  chars : Bytes
  plain : 0 ∉ chars
  deriving DecidableEq

namespace CString

@[ext] theorem ext {left right : CString} (same : left.chars = right.chars) : left = right := by
  cases left
  cases right
  cases same
  rfl

def empty : CString := ⟨[], List.not_mem_nil⟩

/-- The characters in front of the first `stop`. -/
def upTo (s : CString) (stop : UInt8) : CString :=
  ⟨s.chars.takeWhile (· ≠ stop), fun zero => s.plain (List.takeWhile_subset _ zero)⟩

/-- What is behind the first `stop`, or nothing when there is none. -/
def behind (s : CString) (stop : UInt8) : Option CString :=
  if stop ∈ s.chars then
    some ⟨(s.chars.dropWhile (· ≠ stop)).tail,
      fun zero => s.plain ((List.dropWhile_suffix _).subset (List.mem_of_mem_tail zero))⟩
  else none

/-- `left`, the separator, `right`. -/
def join (left : CString) (separator : UInt8) (visible : separator ≠ 0) (right : CString) :
    CString :=
  ⟨left.chars ++ separator :: right.chars, by
    simp only [List.mem_append, List.mem_cons, not_or]
    exact ⟨left.plain, visible.symm, right.plain⟩⟩

@[simp] theorem join_chars (left right : CString) (separator : UInt8) (visible : separator ≠ 0) :
    (left.join separator visible right).chars = left.chars ++ separator :: right.chars := rfl

end CString

end Octets
