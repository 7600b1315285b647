import Mathlib.Data.UInt
import Sbf.FileContent
import Sbf.Octets

set_option autoImplicit false

/-! Writes to a part of an item, with the 64-bit sums of the range check. -/

namespace Sbf

open Octets FileContent

namespace CacheRange

/-- `EINVAL` -/
def einval : Nat := 22

/-- What the C library's calls come to: `errno` before, an error of `fseeko` at a place that
is not negative, and an error of `fwrite` with the bytes that it has written before. -/
structure Io where
  errno : Nat
  fseeko : Option Nat
  fwrite : Option (Nat × Nat)

/-- The errors are other ones than `EINVAL`. -/
structure Io.Documented (io : Io) : Prop where
  fseeko : ∀ error ∈ io.fseeko, error ≠ 0 ∧ error ≠ einval
  fwrite : ∀ failure ∈ io.fwrite, failure.2 ≠ 0 ∧ failure.2 ≠ einval

/-- A `sbfCacheFile`, with its items by their `mOffset`. -/
structure File where
  mFile : Bytes
  mUsed : UInt64
  mItemSize : UInt64
  mItems : List UInt64

namespace File

variable (io : Io)

/-- `fseeko` and `fwrite` of `data`, by the error that is returned. -/
def writeAt (file : File) (position : UInt64) (data : Bytes) : Nat × File :=
  if 2 ^ 63 ≤ position.toNat then (einval, file)
  else
    match io.fseeko with
    | some error => (error, file)
    | none =>
        if data = [] then (io.errno, file)
        else
          match io.fwrite with
          | some (count, error) =>
              (error, { file with
                mFile := overwrite file.mFile position.toNat (data.take count) })
          | none => (0, { file with mFile := overwrite file.mFile position.toNat data })

/-- `sbfCacheFile_write` -/
def write (file : File) (mOffset : UInt64) (itemData : Bytes) : Nat × File :=
  file.writeAt io mOffset itemData

/-- `sbfCacheFile_writeOffset` -/
def writeOffset (file : File) (mOffset offset : UInt64) (data : Bytes) (size : UInt64) :
    Nat × File :=
  if offset > file.mItemSize ∨ offset + size > file.mItemSize then (einval, file)
  else file.writeAt io (mOffset + offset) (data.take size.toNat)

/-- `sbfCacheFile_add` -/
def add (file : File) (itemData : Option Bytes) : File :=
  let mOffset := file.mUsed
  let file := { file with
    mItems := file.mItems ++ [mOffset], mUsed := file.mUsed + file.mItemSize }
  match itemData with
  | none => file
  | some itemData => (file.write io mOffset itemData).2

/-- What `sbfCacheFile_open` makes of a file with `content`, where `cb` says whether the
items that are there are read. -/
def opened (mItemSize : UInt64) (content : Bytes) (cb : Bool) : File where
  mFile := content
  mUsed := UInt64.ofNat content.length
  mItemSize := mItemSize
  mItems :=
    if cb then
      (List.range (content.length / mItemSize.toNat)).map fun k =>
        UInt64.ofNat (k * mItemSize.toNat)
    else []

end File

/-- Any sequence of calls on a file behind `sbfCacheFile_open`, which divides by the item's
size. `front` is what the file has in front of its first item. -/
inductive Reachable (front : Nat) : File → Prop where
  | opened {mItemSize content cb} (some_ : mItemSize ≠ 0)
      (whole : content.length % mItemSize.toNat = 0) (file : content.length < 2 ^ 63)
      (first : front = if cb then 0 else content.length) :
      Reachable front (File.opened mItemSize content cb)
  | add {file} (io itemData) (before : Reachable front file) : Reachable front (file.add io itemData)
  | write {file} (io mOffset itemData) (before : Reachable front file) :
      Reachable front (file.write io mOffset itemData).2
  | writeOffset {file} (io mOffset offset data size) (before : Reachable front file) :
      Reachable front (file.writeOffset io mOffset offset data size).2

/-- The bytes of an item. -/
def File.item (file : File) (mOffset : UInt64) : Bytes :=
  (List.range file.mItemSize.toNat).map fun i => file.mFile.getD (mOffset.toNat + i) 0

/-- Whatever is written and whatever becomes of it: a call that succeeds is in range, changes
the bytes of its range alone and no other item, and one that returns `EINVAL` changes nothing. -/
def Inside (file : File) (index : Nat) (mOffset offset size : UInt64) : Prop :=
  ∀ (data : Bytes) (io : Io) (error : Nat) (after : File), data.length = size.toNat →
    io.Documented → file.writeOffset io mOffset offset data size = (error, after) →
      (error = 0 → offset.toNat + size.toNat ≤ file.mItemSize.toNat ∧
        (∀ i, ¬ (mOffset.toNat + offset.toNat ≤ i ∧
          i < mOffset.toNat + offset.toNat + size.toNat) →
            after.mFile.getD i 0 = file.mFile.getD i 0) ∧
        ∀ other mOther, file.mItems[other]? = some mOther → other ≠ index →
          after.item mOther = file.item mOther) ∧
      (error = einval → after.mFile = file.mFile)

/-- The call is refused: the sums are the wrapped ones. -/
def Refused (file : File) (mOffset offset size : UInt64) : Prop :=
  offset > file.mItemSize ∨ offset + size > file.mItemSize ∨ 2 ^ 63 ≤ (mOffset + offset).toNat

/-- No other item lies over the range. -/
def Apart (file : File) (index : Nat) (mOffset offset size : UInt64) : Prop :=
  ∀ other mOther, file.mItems[other]? = some mOther → other ≠ index →
    mOffset.toNat + offset.toNat + size.toNat ≤ mOther.toNat ∨
      mOther.toNat + file.mItemSize.toNat ≤ mOffset.toNat + offset.toNat

/-- The sums do not wrap, and no other item lies over the range. -/
def Fits (file : File) (index : Nat) (mOffset offset size : UInt64) : Prop :=
  offset.toNat + size.toNat < 2 ^ 64 ∧ mOffset.toNat + offset.toNat < 2 ^ 64 ∧
    Apart file index mOffset offset size

section Write

variable {file : File} {io : Io} {mOffset offset size : UInt64} {data : Bytes}

theorem sum_toNat {a b : UInt64} (fits : a.toNat + b.toNat < 2 ^ 64) :
    (a + b).toNat = a.toNat + b.toNat := by
  rw [UInt64.toNat_add, Nat.mod_eq_of_lt fits]

theorem writeOffset_refused (refused : Refused file mOffset offset size) :
    file.writeOffset io mOffset offset data size = (einval, file) := by
  unfold File.writeOffset
  split
  · rfl
  · rename_i checked
    obtain ⟨one, two⟩ := not_or.mp checked
    have far : 2 ^ 63 ≤ (mOffset + offset).toNat :=
      (refused.resolve_left one).resolve_left two
    rw [File.writeAt, if_pos far]

theorem writeOffset_accepted (accepted : ¬ Refused file mOffset offset size) :
    file.writeOffset io mOffset offset data size =
      file.writeAt io (mOffset + offset) (data.take size.toNat) := by
  obtain ⟨one, two⟩ := not_or.mp accepted
  exact if_neg fun either => either.elim one (not_or.mp two).1

/-- A write that succeeds was made, or is of no bytes. -/
theorem writeAt_some {position : UInt64} {error : Nat} {after : File}
    (documented : io.Documented) (near : position.toNat < 2 ^ 63)
    (run : file.writeAt io position data = (error, after)) :
    (error = einval → after.mFile = file.mFile) ∧
      (error = 0 →
        after = { file with mFile := overwrite file.mFile position.toNat data } ∧ data ≠ [] ∨
        after = file ∧ data = []) := by
  rw [File.writeAt, if_neg (Nat.not_le.mpr near)] at run
  cases seek : io.fseeko with
  | some failure =>
      rw [seek] at run
      cases run
      have other := documented.fseeko _ seek
      exact ⟨fun same => absurd same other.2, fun same => absurd same other.1⟩
  | none =>
      rw [seek] at run
      dsimp only at run
      split at run
      · rename_i nothing
        cases run
        exact ⟨fun _ => rfl, fun _ => Or.inr ⟨rfl, nothing⟩⟩
      · rename_i some_
        cases wrote : io.fwrite with
        | some failure =>
            rw [wrote] at run
            cases run
            have other := documented.fwrite _ wrote
            exact ⟨fun same => absurd same other.2, fun same => absurd same other.1⟩
        | none =>
            rw [wrote] at run
            cases run
            exact ⟨nofun, fun _ => Or.inl ⟨rfl, some_⟩⟩

end Write

section Inside

variable {file : File} {index : Nat} {mOffset offset size : UInt64}

theorem inside_refused (refused : Refused file mOffset offset size) :
    Inside file index mOffset offset size := by
  intro data io error after _ _ run
  rw [writeOffset_refused refused] at run
  cases run
  exact ⟨nofun, fun _ => rfl⟩

theorem accepted_le (accepted : ¬ Refused file mOffset offset size)
    (fits : offset.toNat + size.toNat < 2 ^ 64) :
    offset.toNat + size.toNat ≤ file.mItemSize.toNat := by
  have sum := (not_or.mp (not_or.mp accepted).2).1
  rw [gt_iff_lt, UInt64.lt_iff_toNat_lt, sum_toNat fits] at sum
  exact Nat.not_lt.mp sum

theorem inside_fits (accepted : ¬ Refused file mOffset offset size)
    (fits : size = 0 ∨ Fits file index mOffset offset size) :
    Inside file index mOffset offset size := by
  intro data io error after length documented run
  have near := Nat.not_le.mp (not_or.mp (not_or.mp accepted).2).2
  have whole : data.take size.toNat = data := List.take_of_length_le (Nat.le_of_eq length)
  rw [writeOffset_accepted accepted, whole] at run
  obtain ⟨refused, done⟩ := writeAt_some documented near run
  refine ⟨?_, refused⟩
  intro success
  have small := offset.toNat_lt
  cases fits with
  | inl nothing =>
      have zero : size.toNat = 0 := by rw [nothing]; rfl
      have none_ : data = [] := List.length_eq_zero_iff.mp (length.trans zero)
      have same : after = file := by
        cases done success with
        | inl wrote => exact absurd none_ wrote.2
        | inr left => exact left.1
      rw [same]
      exact ⟨accepted_le accepted (by omega), fun _ _ => rfl, fun _ _ _ _ => rfl⟩
  | inr fits =>
      obtain ⟨noWrap, inFile, apart⟩ := fits
      have place : (mOffset + offset).toNat = mOffset.toNat + offset.toNat := sum_toNat inFile
      have outside : ∀ i, ¬ (mOffset.toNat + offset.toNat ≤ i ∧
          i < mOffset.toNat + offset.toNat + size.toNat) →
            after.mFile.getD i 0 = file.mFile.getD i 0 := by
        intro i out
        cases done success with
        | inl wrote => rw [wrote.1, overwrite_getD, if_neg (by rwa [place, length])]
        | inr left => rw [left.1]
      have same : after.mItemSize = file.mItemSize := by
        cases done success with
        | inl wrote => rw [wrote.1]
        | inr left => rw [left.1]
      refine ⟨accepted_le accepted noWrap, outside, ?_⟩
      intro other mOther found different
      rw [File.item, File.item, same]
      apply List.map_congr_left
      intro i inside
      have below := List.mem_range.mp inside
      have either := apart other mOther found different
      exact outside _ (by omega)

/-- Bytes that are other ones than those of the file. -/
def others (content : Bytes) (position count : Nat) : Bytes :=
  (List.range count).map fun i => content.getD (position + i) 0 + 1

theorem others_changed (content : Bytes) (position count : Nat) {i : Nat} (low : position ≤ i)
    (high : i < position + count) :
    (overwrite content position (others content position count)).getD i 0 ≠ content.getD i 0 := by
  have length : (others content position count).length = count := by simp [others]
  have inside : i - position < count := by omega
  have here : position + (i - position) = i := by omega
  have value : (others content position count).getD (i - position) 0 = content.getD i 0 + 1 := by
    rw [List.getD_eq_getElem?_getD, others, List.getElem?_map, List.getElem?_range inside,
      Option.map_some, Option.getD_some, here]
  rw [overwrite_getD, if_pos ⟨low, by rwa [length]⟩, value]
  intro same
  have one := UInt8.add_eq_left.mp same
  exact absurd one (by decide)

theorem fits_of_inside (accepted : ¬ Refused file mOffset offset size) (some_ : size ≠ 0)
    (inside : Inside file index mOffset offset size) : Fits file index mOffset offset size := by
  have positive : 0 < size.toNat :=
    Nat.pos_of_ne_zero fun zero => some_ (UInt64.toNat_inj.mp zero)
  have far := (not_or.mp (not_or.mp accepted).2).2
  have near := Nat.not_le.mp far
  let position := (mOffset + offset).toNat
  let data := others file.mFile position size.toNat
  have length : data.length = size.toNat := by simp [data, others]
  have whole : data.take size.toNat = data := List.take_of_length_le (Nat.le_of_eq length)
  have written : data ≠ [] := List.length_pos_iff.mp (by rwa [length])
  have run : file.writeOffset ⟨0, none, none⟩ mOffset offset data size =
      (0, { file with mFile := overwrite file.mFile position data }) := by
    rw [writeOffset_accepted accepted, whole, File.writeAt, if_neg far]
    exact if_neg written
  obtain ⟨small, outside, frame⟩ :=
    (inside data ⟨0, none, none⟩ _ _ length ⟨nofun, nofun⟩ run).1 rfl
  have within : ∀ i, position ≤ i → i < position + size.toNat →
      mOffset.toNat + offset.toNat ≤ i ∧ i < mOffset.toNat + offset.toNat + size.toNat := by
    intro i low high
    by_contra out
    exact others_changed file.mFile position size.toNat low high (outside i out)
  have word := file.mItemSize.toNat_lt
  have inFile : mOffset.toNat + offset.toNat < 2 ^ 64 := by
    have start := (within position (Nat.le_refl _) (Nat.lt_add_of_pos_right positive)).1
    have below : position < 2 ^ 63 := near
    omega
  refine ⟨by omega, inFile, ?_⟩
  intro other mOther found different
  have place : position = mOffset.toNat + offset.toNat := sum_toNat inFile
  have same := frame other mOther found different
  by_contra shared
  obtain ⟨before, behind⟩ := not_or.mp shared
  -- the first byte of the range that the other item has too
  let i := max (mOffset.toNat + offset.toNat) mOther.toNat
  have low : position ≤ i := by omega
  have high : i < position + size.toNat := by omega
  have own : i - mOther.toNat < file.mItemSize.toNat := by omega
  have byte := congrArg (fun bytes : Bytes => bytes[i - mOther.toNat]?) same
  have here : mOther.toNat + (i - mOther.toNat) = i := by omega
  simp only [File.item, List.getElem?_map, List.getElem?_range own, Option.map_some, here,
    Option.some.injEq] at byte
  exact others_changed file.mFile position size.toNat low high byte

theorem inside_iff : Inside file index mOffset offset size ↔
    Refused file mOffset offset size ∨ size = 0 ∨ Fits file index mOffset offset size := by
  by_cases refused : Refused file mOffset offset size
  · exact iff_of_true (inside_refused refused) (Or.inl refused)
  · constructor
    · intro inside
      by_cases nothing : size = 0
      · exact Or.inr (Or.inl nothing)
      · exact Or.inr (Or.inr (fits_of_inside refused nothing inside))
    · intro fits
      exact inside_fits refused (fits.resolve_left refused)

end Inside

/-- The items follow one another, with sums that may wrap. -/
structure Laid (front : Nat) (file : File) : Prop where
  positive : 0 < file.mItemSize.toNat
  used : file.mUsed = UInt64.ofNat (front + file.mItems.length * file.mItemSize.toNat)
  items : ∀ (k : Nat) mOffset, file.mItems[k]? = some mOffset →
    mOffset = UInt64.ofNat (front + k * file.mItemSize.toNat)

namespace Laid

variable {front : Nat} {file after : File}

theorem frame (laid : Laid front file) (mItemSize : after.mItemSize = file.mItemSize)
    (mUsed : after.mUsed = file.mUsed) (mItems : after.mItems = file.mItems) :
    Laid front after where
  positive := by rw [mItemSize]; exact laid.positive
  used := by rw [mUsed, mItems, mItemSize]; exact laid.used
  items := by rw [mItems, mItemSize]; exact laid.items

theorem writeAt (laid : Laid front file) (io : Io) (position : UInt64) (data : Bytes) :
    Laid front (file.writeAt io position data).2 := by
  unfold File.writeAt
  split
  · exact laid
  · split
    · exact laid
    · split
      · exact laid
      · split
        · exact laid.frame rfl rfl rfl
        · exact laid.frame rfl rfl rfl

theorem add (laid : Laid front file) (io : Io) (itemData : Option Bytes) :
    Laid front (file.add io itemData) := by
  have grown : Laid front { file with
      mItems := file.mItems ++ [file.mUsed], mUsed := file.mUsed + file.mItemSize } := by
    refine ⟨laid.positive, ?_, ?_⟩
    · have whole : front + (file.mItems.length + 1) * file.mItemSize.toNat =
          front + file.mItems.length * file.mItemSize.toNat + file.mItemSize.toNat := by
        rw [Nat.add_mul, Nat.one_mul, Nat.add_assoc]
      dsimp only
      rw [List.length_append, List.length_singleton, whole, UInt64.ofNat_add, UInt64.ofNat_toNat,
        laid.used]
    · intro k mOffset found
      dsimp only at found ⊢
      by_cases here : k < file.mItems.length
      · rw [List.getElem?_append_left here] at found
        exact laid.items k mOffset found
      · rw [List.getElem?_append_right (Nat.not_lt.mp here), List.getElem?_singleton] at found
        split at found
        · rename_i last
          cases found
          have same : k = file.mItems.length := by omega
          rw [same, laid.used]
        · cases found
  cases itemData with
  | none => exact grown
  | some itemData => exact grown.writeAt io file.mUsed itemData

theorem reachable (reached : Reachable front file) : Laid front file := by
  induction reached with
  | @opened mItemSize content cb some_ whole small first =>
      have positive : 0 < mItemSize.toNat :=
        Nat.pos_of_ne_zero fun zero => some_ (UInt64.toNat_inj.mp zero)
      refine ⟨positive, ?_, ?_⟩
      · cases cb with
        | false => simp [File.opened, first]
        | true =>
            have items : content.length / mItemSize.toNat * mItemSize.toNat = content.length :=
              Nat.div_mul_cancel (Nat.dvd_of_mod_eq_zero whole)
            simp [File.opened, first, items]
      · intro k mOffset found
        cases cb with
        | false => cases found
        | true =>
            simp only [File.opened, ↓reduceIte, List.getElem?_map, Option.map_eq_some_iff] at found
            obtain ⟨number, there, rfl⟩ := found
            obtain ⟨_, rfl⟩ := List.getElem?_eq_some_iff.mp there
            simp [first, File.opened]
  | add io itemData _ ih => exact ih.add io itemData
  | write io mOffset itemData _ ih => exact ih.writeAt io mOffset itemData
  | writeOffset io mOffset offset data size _ ih =>
      unfold File.writeOffset
      split
      · exact ih
      · exact ih.writeAt io _ _

/-- Where the sizes of the items do not wrap, no two of them share a byte. -/
theorem apart (laid : Laid front file)
    (total : front + file.mItems.length * file.mItemSize.toNat ≤ 2 ^ 64) {index : Nat}
    {mOffset offset size : UInt64} (found : file.mItems[index]? = some mOffset)
    (inside : offset.toNat + size.toNat ≤ file.mItemSize.toNat) :
    Apart file index mOffset offset size := by
  have place : ∀ (k : Nat) m, file.mItems[k]? = some m →
      m.toNat = front + k * file.mItemSize.toNat := by
    intro k m there
    obtain ⟨below, -⟩ := List.getElem?_eq_some_iff.mp there
    have room : (k + 1) * file.mItemSize.toNat ≤ file.mItems.length * file.mItemSize.toNat :=
      Nat.mul_le_mul_right _ below
    have positive := laid.positive
    rw [Nat.add_mul, Nat.one_mul] at room
    rw [laid.items k m there, UInt64.toNat_ofNat', Nat.mod_eq_of_lt (by omega)]
  intro other mOther there different
  rw [place index mOffset found, place other mOther there]
  cases Nat.lt_or_gt_of_ne different with
  | inl before =>
      have room : (other + 1) * file.mItemSize.toNat ≤ index * file.mItemSize.toNat :=
        Nat.mul_le_mul_right _ before
      rw [Nat.add_mul, Nat.one_mul] at room
      omega
  | inr behind =>
      have room : (index + 1) * file.mItemSize.toNat ≤ other * file.mItemSize.toNat :=
        Nat.mul_le_mul_right _ behind
      rw [Nat.add_mul, Nat.one_mul] at room
      omega

end Laid

/-- A call is right just when it is refused or its sums do not wrap and its range is in no
other item; the latter is so as long as the items' sizes add up to no more than 64 bits. -/
theorem writeOffset_inside_iff {front : Nat} {file : File} (reached : Reachable front file)
    {index : Nat} {mOffset : UInt64} (found : file.mItems[index]? = some mOffset)
    (offset size : UInt64) :
    (Inside file index mOffset offset size ↔
      Refused file mOffset offset size ∨ size = 0 ∨ Fits file index mOffset offset size) ∧
    (front + file.mItems.length * file.mItemSize.toNat ≤ 2 ^ 64 →
      offset.toNat + size.toNat ≤ file.mItemSize.toNat → Apart file index mOffset offset size) :=
  ⟨inside_iff, fun total inside => (Laid.reachable reached).apart total found inside⟩

/-- No call fails. -/
def quiet : Io := ⟨0, none, none⟩

/-- A new file with two items. -/
def twoItems (mItemSize : UInt64) : File :=
  ((File.opened mItemSize [] false).add quiet none).add quiet none

theorem reachable_twoItems {mItemSize : UInt64} (some_ : mItemSize ≠ 0) :
    Reachable 0 (twoItems mItemSize) :=
  .add quiet none (.add quiet none (.opened some_ (Nat.zero_mod _) (by decide) rfl))

/-- The second half of the second of two items of 16 bytes is written, and the first one stays. -/
theorem writeOffset_inside_half : Inside (twoItems 16) 1 16 8 8 ∧
    ∃ after, (twoItems 16).writeOffset quiet 16 8 (List.replicate 8 1) 8 = (0, after) ∧
      after.item 16 = List.replicate 8 0 ++ List.replicate 8 1 ∧
      after.item 0 = (twoItems 16).item 0 := by
  have reached : Reachable 0 (twoItems 16) := reachable_twoItems (by decide)
  have second : (twoItems 16).mItems[1]? = some 16 := by decide
  obtain ⟨right, apart⟩ := writeOffset_inside_iff reached second 8 8
  have inside : Inside (twoItems 16) 1 16 8 8 :=
    right.mpr (.inr (.inr ⟨by decide, by decide, apart (by decide) (by decide)⟩))
  refine ⟨inside, _, rfl, by decide, ?_⟩
  obtain ⟨-, -, others⟩ := (inside (List.replicate 8 1) quiet 0 _ rfl ⟨nofun, nofun⟩ rfl).1 rfl
  exact others 0 0 (by decide) (by decide)

/-- With items of `2 ^ 64 - 8` bytes the place of the write wraps into the first item. -/
theorem writeOffset_wraps :
    (twoItems 0xfffffffffffffff8).mItems = [0, 0xfffffffffffffff8] ∧
      ((twoItems 0xfffffffffffffff8).writeOffset quiet 0xfffffffffffffff8 16
        (List.replicate 8 1) 8) = (0, { twoItems 0xfffffffffffffff8 with
          mFile := List.replicate 8 0 ++ List.replicate 8 1 }) ∧
      ¬ Inside (twoItems 0xfffffffffffffff8) 1 0xfffffffffffffff8 16 8 := by
  have run : ((twoItems 0xfffffffffffffff8).writeOffset quiet 0xfffffffffffffff8 16
      (List.replicate 8 1) 8) = (0, { twoItems 0xfffffffffffffff8 with
        mFile := List.replicate 8 0 ++ List.replicate 8 1 }) := by
    rfl
  refine ⟨rfl, run, ?_⟩
  intro inside
  obtain ⟨_, outside, _⟩ := (inside (List.replicate 8 1) quiet _ _ rfl ⟨nofun, nofun⟩ run).1 rfl
  have same := outside 8 (by decide)
  exact absurd same (by decide)

end CacheRange

end Sbf
