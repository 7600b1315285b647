import Sbf.FileContent
import Sbf.Octets
import Sbf.TotalSteps

set_option autoImplicit false

/-! The cache file, over any number of rounds of opening and closing it. -/

namespace Sbf

open Octets FileContent

/-- `struct sbfCacheFileItemImpl`, with the number of the item in the file. -/
structure CacheFileItem where
  mOffset : Nat
  number : Nat
deriving DecidableEq, Repr

/-- `struct sbfCacheFileImpl`; `mFile` is what the file has once it is closed. -/
structure CacheFile where
  mFile : Bytes
  mUsed : Nat
  mItems : List CacheFileItem
deriving DecidableEq, Repr

namespace CacheFile

/-- The loop of `sbfCacheFile_open`: each item with the bytes that its callback gets. -/
def readItems (mItemSize : Nat) (content : Bytes) : Nat → Nat → List (CacheFileItem × Bytes)
  | 0, _ => []
  | fuel + 1, offset =>
      if offset < content.length then
        (⟨offset, offset / mItemSize⟩, (content.drop offset).take mItemSize) ::
          readItems mItemSize content fuel (offset + mItemSize)
      else []

/-- `sbfCacheFile_open` of a path where there is a file or none, with what the callback is
called with when there is one. -/
def openFile (mItemSize : Nat) (always_create cb : Bool) (disk : Option Bytes) :
    Option (CacheFile × List Bytes) :=
  let created := always_create || disk.isNone
  let content := if created then [] else disk.getD []
  if content.length % mItemSize ≠ 0 then none
  else
    let items :=
      if !created && content.length != 0 && cb then
        readItems mItemSize content content.length 0
      else []
    some (⟨content, content.length, items.map (·.1)⟩, items.map (·.2))

/-- `sbfCacheFile_write`, and the part of it that `sbfCacheFile_writeOffset` does. -/
def writeAt (item : CacheFileItem) (offset : Nat) (data : Bytes) (file : CacheFile) : CacheFile :=
  { file with mFile := overwrite file.mFile (item.mOffset + offset) data }

/-- `sbfCacheFile_add` of the item with a number. -/
def add (mItemSize number : Nat) (itemData : Option Bytes) (file : CacheFile) : CacheFile :=
  let item : CacheFileItem := ⟨file.mUsed, number⟩
  let file := { file with mItems := file.mItems ++ [item], mUsed := file.mUsed + mItemSize }
  match itemData with
  | none => file
  | some data => file.writeAt item 0 data

end CacheFile

/-- A path and the handle on it, if it is open. The history, since the file was created last:
the items that were added, and what was written to each of their bytes last. -/
structure CachePath where
  disk : Option Bytes
  file : Option CacheFile
  added : Nat
  stored : Nat → Nat → Option UInt8

namespace CachePath

def create : CachePath := ⟨none, none, 0, fun _ _ => none⟩

/-- What `sbfCacheFile_write` and `sbfCacheFile_writeOffset` leave in an item. -/
def record (number offset : Nat) (data : Bytes) (stored : Nat → Nat → Option UInt8) :
    Nat → Nat → Option UInt8 := fun other i =>
  if other = number ∧ offset ≤ i ∧ i < offset + data.length then some (data.getD (i - offset) 0)
  else stored other i

/-- The bytes of an item, with zeros where nothing was written. -/
def content (mItemSize : Nat) (path : CachePath) (number : Nat) : Bytes :=
  (List.range mItemSize).map fun i => (path.stored number i).getD 0

/-- Items are named by their place among those of the handle. -/
inductive Action where
  | openFile (always_create cb : Bool)
  | add (itemData : Option Bytes)
  | write (item : Nat) (itemData : Bytes)
  | writeOffset (item offset : Nat) (data : Bytes)
  | flush
  | close
deriving DecidableEq, Repr

/-- `sbfCacheFile_open`, when the path is not open. -/
def openFile (mItemSize : Nat) (always_create cb : Bool) (path : CachePath) : CachePath :=
  match path.file, CacheFile.openFile mItemSize always_create cb path.disk with
  | none, some (file, _) =>
      if always_create || path.disk.isNone then ⟨some [], some file, 0, fun _ _ => none⟩
      else { path with file := some file }
  | _, _ => path

/-- `sbfCacheFile_add` -/
def add (mItemSize : Nat) (itemData : Option Bytes) (path : CachePath) : CachePath :=
  match path.file with
  | none => path
  | some file =>
      if itemData.all (·.length = mItemSize) then
        { path with
          file := some (file.add mItemSize path.added itemData)
          added := path.added + 1
          stored :=
            match itemData with
            | none => path.stored
            | some data => record path.added 0 data path.stored }
      else path

/-- `sbfCacheFile_writeOffset`: a range outside of the item is refused, and nothing is
written of no bytes. -/
def writeOffset (mItemSize item offset : Nat) (data : Bytes) (path : CachePath) : CachePath :=
  match path.file with
  | none => path
  | some file =>
      match file.mItems[item]? with
      | none => path
      | some found =>
          if offset > mItemSize ∨ offset + data.length > mItemSize ∨ data = [] then path
          else
            { path with
              file := some (file.writeAt found offset data)
              stored := record found.number offset data path.stored }

/-- `sbfCacheFile_write`, of `mItemSize` bytes. -/
def write (mItemSize item : Nat) (itemData : Bytes) (path : CachePath) : CachePath :=
  match path.file with
  | none => path
  | some file =>
      match file.mItems[item]? with
      | none => path
      | some found =>
          if itemData.length = mItemSize then
            { path with
              file := some (file.writeAt found 0 itemData)
              stored := record found.number 0 itemData path.stored }
          else path

/-- `sbfCacheFile_flush` -/
def flush (path : CachePath) : CachePath :=
  match path.file with
  | none => path
  | some file => { path with disk := some file.mFile }

/-- `sbfCacheFile_close` -/
def close (path : CachePath) : CachePath :=
  match path.file with
  | none => path
  | some file => { path with disk := some file.mFile, file := none }

def step (mItemSize : Nat) : Action → CachePath → CachePath
  | .openFile always_create cb => openFile mItemSize always_create cb
  | .add itemData => add mItemSize itemData
  | .write item itemData => write mItemSize item itemData
  | .writeOffset item offset data => writeOffset mItemSize item offset data
  | .flush => flush
  | .close => close

/-- Opened again with a callback, the file gives each item that was added with its bytes. -/
def Reopens (mItemSize : Nat) (path : CachePath) : Prop :=
  ∃ file, CacheFile.openFile mItemSize false true path.disk =
    some (file, (List.range path.added).map (path.content mItemSize))

/-- Whatever is closed can be opened again. -/
def Works (mItemSize : Nat) : Action → CachePath → Prop
  | .close, path => path.file ≠ none → path.close.Reopens mItemSize
  | _, _ => True

/-- Nothing was added, or the last byte of the last item has been written. -/
def Reaches (mItemSize : Nat) : Action → CachePath → Prop
  | .close, path => path.file ≠ none →
      path.added = 0 ∨ (path.stored (path.added - 1) (mItemSize - 1)).isSome
  | _, _ => True

end CachePath

end Sbf
