import Sbf.CacheFile

set_option autoImplicit false

namespace Sbf

open Octets FileContent

namespace CachePath

/-- A file has what was written to its items; it ends behind the last byte written. -/
structure Image (mItemSize : Nat) (content : Bytes) (added : Nat)
    (stored : Nat → Nat → Option UInt8) : Prop where
  shows : ∀ k < added, ∀ i < mItemSize, content.getD (k * mItemSize + i) 0 = (stored k i).getD 0
  within : content.length ≤ added * mItemSize
  covers : ∀ k < added, ∀ i < mItemSize, (stored k i).isSome → k * mItemSize + i < content.length
  ends : content.length = 0 ∨
    ∃ k < added, ∃ i < mItemSize, content.length = k * mItemSize + i + 1 ∧ (stored k i).isSome
  later : ∀ k i, added ≤ k → stored k i = none

/-- The slots of two items do not overlap. -/
theorem slot_lt {mItemSize k number i : Nat} (before : k < number) (inside : i < mItemSize) :
    k * mItemSize + i < number * mItemSize := by
  have next : (k + 1) * mItemSize ≤ number * mItemSize := Nat.mul_le_mul_right _ before
  rw [Nat.succ_mul] at next
  omega

namespace Image

variable {mItemSize : Nat} {content : Bytes} {added : Nat} {stored : Nat → Nat → Option UInt8}

theorem empty (mItemSize : Nat) : Image mItemSize [] 0 (fun _ _ => none) where
  shows _ below := absurd below (Nat.not_lt_zero _)
  within := Nat.zero_le _
  covers _ below := absurd below (Nat.not_lt_zero _)
  ends := Or.inl rfl
  later _ _ _ := rfl

/-- One more item takes no room in the file. -/
theorem add (image : Image mItemSize content added stored) :
    Image mItemSize content (added + 1) stored where
  shows k below i inside := by
    rcases Nat.lt_succ_iff_lt_or_eq.mp below with below | rfl
    · exact image.shows k below i inside
    · have within := image.within
      rw [image.later _ i (Nat.le_refl _), List.getD_eq_default _ _ (by omega)]
      rfl
  within := by
    have within := image.within
    rw [Nat.succ_mul]
    omega
  covers k below i inside written := by
    rcases Nat.lt_succ_iff_lt_or_eq.mp below with below | rfl
    · exact image.covers k below i inside written
    · rw [image.later _ i (Nat.le_refl _)] at written
      cases written
  ends := by
    rcases image.ends with nothing | ⟨k, below, rest⟩
    · exact Or.inl nothing
    · exact Or.inr ⟨k, Nat.lt_succ_of_lt below, rest⟩
  later k i above := image.later k i (by omega)

/-- A write of some bytes inside of an item. -/
theorem write (image : Image mItemSize content added stored) {number offset : Nat} {data : Bytes}
    (below : number < added) (fits : offset + data.length ≤ mItemSize) (some_ : data ≠ []) :
    Image mItemSize (overwrite content (number * mItemSize + offset) data) added
      (record number offset data stored) where
  shows k below' i inside := by
    rw [overwrite_getD, record]
    by_cases here : k = number
    · subst here
      by_cases covered : offset ≤ i ∧ i < offset + data.length
      · rw [if_pos (by omega), if_pos ⟨rfl, covered⟩, Option.getD_some]
        congr 1
        omega
      · rw [if_neg (by omega), if_neg (covered ∘ And.right)]
        exact image.shows k below' i inside
    · rw [if_neg (here ∘ And.left), if_neg, image.shows k below' i inside]
      rintro ⟨above, under⟩
      rcases Nat.lt_or_gt_of_ne here with before | behind
      · have apart := slot_lt before inside
        omega
      · have positive := List.length_pos_of_ne_nil some_
        have apart := slot_lt behind (show offset + data.length - 1 < mItemSize by omega)
        omega
  within := by
    have positive := List.length_pos_of_ne_nil some_
    have within := image.within
    have slot := slot_lt below (show offset + data.length - 1 < mItemSize by omega)
    rw [overwrite_length]
    omega
  covers k below' i inside written := by
    rw [overwrite_length]
    rw [record] at written
    split at written
    · rename_i here
      obtain ⟨rfl, _, under⟩ := here
      omega
    · have covered := image.covers k below' i inside written
      omega
  ends := by
    have positive := List.length_pos_of_ne_nil some_
    have room : offset + data.length - 1 < mItemSize := by omega
    have written : (record number offset data stored number (offset + data.length - 1)).isSome := by
      rw [record, if_pos ⟨rfl, by omega, by omega⟩]
      rfl
    rw [overwrite_length]
    by_cases beyond : content.length ≤ number * mItemSize + offset + data.length
    · exact Or.inr ⟨number, below, offset + data.length - 1, room, by omega, written⟩
    · rcases image.ends with nothing | ⟨k, below', i, inside, ends, had⟩
      · omega
      · refine Or.inr ⟨k, below', i, inside, by omega, ?_⟩
        rw [record]
        split
        · rfl
        · exact had
  later k i above := by
    rw [record, if_neg (by omega)]
    exact image.later k i above

/-- The file has all its items exactly when there are none, or the last byte of the last one
has been written. -/
theorem full_iff (image : Image mItemSize content added stored) (positive : 0 < mItemSize) :
    content.length = added * mItemSize ↔
      added = 0 ∨ (stored (added - 1) (mItemSize - 1)).isSome := by
  rcases Nat.eq_zero_or_pos added with rfl | some_
  · have within := image.within
    simp only [Nat.zero_mul, Nat.le_zero, true_or, iff_true] at within ⊢
    exact within
  · have whole : added * mItemSize = (added - 1) * mItemSize + (mItemSize - 1) + 1 := by
      obtain ⟨k, rfl⟩ := Nat.exists_eq_succ_of_ne_zero (Nat.ne_of_gt some_)
      rw [Nat.succ_mul, Nat.succ_sub_one]
      omega
    constructor
    · intro full
      right
      rcases image.ends with nothing | ⟨k, below, i, inside, ends, written⟩
      · omega
      · have last : k = added - 1 := by
          by_contra other
          have before := slot_lt (show k < added - 1 by omega) inside
          omega
        subst last
        have byte : i = mItemSize - 1 := by omega
        exact byte ▸ written
    · rintro (none_ | written)
      · omega
      · have covered := image.covers (added - 1) (by omega) (mItemSize - 1) (by omega) written
        have within := image.within
        omega

end Image

/-- The items that `sbfCacheFile_open` finds in a file of whole items. -/
theorem readItems_eq {mItemSize count : Nat} (positive : 0 < mItemSize) {content : Bytes}
    (whole : content.length = count * mItemSize) (k : Nat) (fuel : Nat) (enough : count - k ≤ fuel) :
    CacheFile.readItems mItemSize content fuel (k * mItemSize) =
      (List.range' k (count - k)).map fun j =>
        (⟨j * mItemSize, j⟩, (content.drop (j * mItemSize)).take mItemSize) := by
  induction fuel generalizing k with
  | zero =>
      rw [Nat.le_zero.mp enough]
      rfl
  | succ fuel ih =>
      by_cases inside : k < count
      · have before : k * mItemSize < content.length := by
          rw [whole]
          exact Nat.mul_lt_mul_of_pos_right inside positive
        have one : count - k = count - (k + 1) + 1 := by omega
        rw [CacheFile.readItems, if_pos before, Nat.mul_div_cancel _ positive, ← Nat.succ_mul,
          ih (k + 1) (by omega), one, List.range'_succ, List.map_cons]
      · have behind : ¬ k * mItemSize < content.length := by
          rw [whole]
          exact Nat.not_lt.mpr (Nat.mul_le_mul_right _ (Nat.not_lt.mp inside))
        rw [CacheFile.readItems, if_neg behind, Nat.sub_eq_zero_of_le (Nat.not_lt.mp inside)]
        rfl

theorem take_drop_eq {content : Bytes} {start count : Nat}
    (inside : start + count ≤ content.length) :
    (content.drop start).take count = (List.range count).map fun i => content.getD (start + i) 0 := by
  apply List.ext_getElem
  · rw [List.length_take, List.length_drop, List.length_map, List.length_range]
    omega
  · intro i low high
    rw [List.length_map, List.length_range] at high
    rw [List.getElem_take, List.getElem_drop, List.getElem_map, List.getElem_range,
      List.getD_eq_getElem _ _ (by omega)]

/-- A file of whole items is opened with all of them. -/
theorem openFile_whole {mItemSize count : Nat} (positive : 0 < mItemSize) {content : Bytes}
    (whole : content.length = count * mItemSize) (cb : Bool) :
    CacheFile.openFile mItemSize false cb (some content) =
      some (⟨content, content.length,
        if cb then (List.range count).map fun k => ⟨k * mItemSize, k⟩ else []⟩,
        if cb then (List.range count).map fun k =>
          (content.drop (k * mItemSize)).take mItemSize else []) := by
  have even : ¬ content.length % mItemSize ≠ 0 := by
    rw [whole, Nat.mul_mod_left]
    exact not_not.mpr rfl
  cases cb with
  | false => simp [CacheFile.openFile, even]
  | true =>
      have all := readItems_eq positive whole 0 content.length (by
        rw [whole]
        exact Nat.le_trans (Nat.sub_le _ _) (Nat.le_mul_of_pos_right _ positive))
      rw [Nat.zero_mul, Nat.sub_zero, ← List.range_eq_range'] at all
      rcases Nat.eq_zero_or_pos content.length with nothing | some_
      · have none_ : count = 0 := by
          rw [nothing] at whole
          rcases Nat.mul_eq_zero.mp whole.symm with none_ | none_
          · exact none_
          · omega
        simp [CacheFile.openFile, nothing, none_]
      · simp [CacheFile.openFile, even, all, Nat.ne_of_gt some_, Function.comp_def]

/-- A file is opened with as many items as it has room for. -/
theorem openFile_length {mItemSize : Nat} {content : Bytes} {file : CacheFile} {calls : List Bytes}
    (positive : 0 < mItemSize)
    (opened : CacheFile.openFile mItemSize false true (some content) = some (file, calls)) :
    content.length = calls.length * mItemSize := by
  by_cases even : content.length % mItemSize ≠ 0
  · simp [CacheFile.openFile, even] at opened
  · have whole : content.length = content.length / mItemSize * mItemSize :=
      (Nat.div_mul_cancel (Nat.dvd_of_mod_eq_zero (not_not.mp even))).symm
    rw [openFile_whole positive whole] at opened
    cases opened
    simpa using whole

/-- The items come back exactly when the file has room for all of them. -/
theorem reopens_iff {mItemSize : Nat} (positive : 0 < mItemSize) {path : CachePath} {content : Bytes}
    (disk : path.disk = some content)
    (image : Image mItemSize content path.added path.stored) :
    path.Reopens mItemSize ↔ content.length = path.added * mItemSize := by
  rw [Reopens, disk]
  constructor
  · rintro ⟨file, opened⟩
    have whole := openFile_length positive opened
    rwa [List.length_map, List.length_range] at whole
  · intro whole
    refine ⟨_, (openFile_whole positive whole true).trans (congrArg some (Prod.ext rfl ?_))⟩
    refine List.map_congr_left fun k below => ?_
    have below := List.mem_range.mp below
    have room := slot_lt below (show mItemSize - 1 < mItemSize by omega)
    rw [take_drop_eq (by omega), CachePath.content]
    exact List.map_congr_left fun i inside => image.shows k below i (List.mem_range.mp inside)

/-- The handle knows the items by the places at which they are in the file. -/
structure FileSound (mItemSize : Nat) (file : CacheFile) (path : CachePath) : Prop where
  used : file.mUsed = path.added * mItemSize
  items : ∀ item ∈ file.mItems, item.number < path.added ∧ item.mOffset = item.number * mItemSize
  image : Image mItemSize file.mFile path.added path.stored

/-- A file that is closed has all that was added to it. -/
structure Sound (mItemSize : Nat) (path : CachePath) : Prop where
  opened : ∀ file, path.file = some file → path.FileSound mItemSize file
  closed : path.file = none → ∀ content, path.disk = some content →
    Image mItemSize content path.added path.stored ∧ content.length = path.added * mItemSize

theorem create_sound (mItemSize : Nat) : create.Sound mItemSize where
  opened _ there := by cases there
  closed _ _ there := by cases there

section Steps

variable {mItemSize : Nat} {path : CachePath}

/-- While it is open a file is sound when its handle is. -/
theorem FileSound.sound {file : CacheFile} (sound : path.FileSound mItemSize file)
    (there : path.file = some file) : path.Sound mItemSize where
  opened other there' := by
    rw [there] at there'
    cases there'
    exact sound
  closed none_ := by
    rw [there] at none_
    cases none_

theorem Sound.openFile (positive : 0 < mItemSize) (always_create cb : Bool)
    (sound : path.Sound mItemSize) : (path.openFile mItemSize always_create cb).Sound mItemSize := by
  unfold CachePath.openFile
  split
  · rename_i file calls closed opened
    by_cases created : (always_create || path.disk.isNone) = true
    · rw [if_pos created]
      simp only [CacheFile.openFile, created, ↓reduceIte, List.length_nil, Nat.zero_mod,
        ne_eq, not_true_eq_false, Bool.not_true, Bool.false_and, Bool.false_eq_true] at opened
      cases opened
      exact FileSound.sound ⟨(Nat.zero_mul _).symm, List.forall_mem_nil _, Image.empty mItemSize⟩ rfl
    · rw [if_neg created]
      simp only [Bool.or_eq_true, not_or, Bool.not_eq_true] at created
      obtain ⟨content, disk⟩ : ∃ content, path.disk = some content := by
        cases disk : path.disk with
        | none => rw [disk] at created; cases created.2
        | some content => exact ⟨content, rfl⟩
      obtain ⟨image, whole⟩ := sound.closed closed content disk
      rw [created.1, disk, openFile_whole positive whole] at opened
      cases opened
      refine FileSound.sound ⟨whole, ?_, image⟩ rfl
      cases cb with
      | false => exact List.forall_mem_nil _
      | true =>
          intro item member
          obtain ⟨k, below, rfl⟩ := List.mem_map.mp member
          exact ⟨List.mem_range.mp below, rfl⟩
  · exact sound

theorem Sound.add (positive : 0 < mItemSize) (itemData : Option Bytes)
    (sound : path.Sound mItemSize) : (path.add mItemSize itemData).Sound mItemSize := by
  unfold CachePath.add
  split
  · exact sound
  · rename_i file there
    obtain ⟨used, items, image⟩ := sound.opened file there
    split
    · rename_i sized
      have used' : file.mUsed + mItemSize = (path.added + 1) * mItemSize := by
        rw [used, Nat.succ_mul]
      have items' : ∀ item ∈ file.mItems ++ [⟨file.mUsed, path.added⟩],
          item.number < path.added + 1 ∧ item.mOffset = item.number * mItemSize := by
        rw [List.forall_mem_append, List.forall_mem_singleton]
        exact ⟨fun item member => ⟨Nat.lt_succ_of_lt (items item member).1, (items item member).2⟩,
          Nat.lt_succ_self _, used⟩
      cases itemData with
      | none =>
          refine FileSound.sound ?_ rfl
          exact ⟨used', items', image.add⟩
      | some data =>
          have length : data.length = mItemSize := by simpa using sized
          have some_ : data ≠ [] := by
            rintro rfl
            exact absurd length (Nat.ne_of_lt positive)
          have written := image.add.write (Nat.lt_succ_self path.added)
            (show 0 + data.length ≤ mItemSize by omega) some_
          refine FileSound.sound ?_ rfl
          refine ⟨used', items', ?_⟩
          dsimp only [CacheFile.add, CacheFile.writeAt]
          rw [used]
          exact written
    · exact sound

/-- A write of some bytes inside of an item that the handle knows. -/
theorem FileSound.writeAt {file : CacheFile} (sound : path.FileSound mItemSize file)
    {found : CacheFileItem} (member : found ∈ file.mItems) {offset : Nat} {data : Bytes}
    (fits : offset + data.length ≤ mItemSize) (some_ : data ≠ []) :
    Sound mItemSize { path with
      file := some (file.writeAt found offset data)
      stored := record found.number offset data path.stored } := by
  obtain ⟨below, place⟩ := sound.items found member
  refine FileSound.sound ?_ rfl
  refine ⟨sound.used, sound.items, ?_⟩
  dsimp only [CacheFile.writeAt]
  rw [place]
  exact sound.image.write below fits some_

theorem Sound.writeOffset (item offset : Nat) (data : Bytes) (sound : path.Sound mItemSize) :
    (path.writeOffset mItemSize item offset data).Sound mItemSize := by
  unfold CachePath.writeOffset
  split
  · exact sound
  · rename_i file there
    split
    · exact sound
    · rename_i found listed
      split
      · exact sound
      · rename_i legal
        simp only [not_or, Nat.not_lt] at legal
        exact (sound.opened file there).writeAt (List.mem_of_getElem? listed) legal.2.1 legal.2.2

theorem Sound.write (positive : 0 < mItemSize) (item : Nat) (itemData : Bytes)
    (sound : path.Sound mItemSize) : (path.write mItemSize item itemData).Sound mItemSize := by
  unfold CachePath.write
  split
  · exact sound
  · rename_i file there
    split
    · exact sound
    · rename_i found listed
      split
      · rename_i length
        have some_ : itemData ≠ [] := by
          rintro rfl
          exact absurd length (Nat.ne_of_lt positive)
        exact (sound.opened file there).writeAt (List.mem_of_getElem? listed)
          (by omega) some_
      · exact sound

theorem Sound.flush (sound : path.Sound mItemSize) : path.flush.Sound mItemSize := by
  unfold CachePath.flush
  split
  · exact sound
  · rename_i file there
    obtain ⟨used, items, image⟩ := sound.opened file there
    exact FileSound.sound ⟨used, items, image⟩ there

/-- What is closed opens again exactly when the file has room for all items. -/
theorem close_reopens_iff (positive : 0 < mItemSize) (sound : path.Sound mItemSize)
    {file : CacheFile} (there : path.file = some file) :
    path.close.Reopens mItemSize ↔ file.mFile.length = path.added * mItemSize := by
  have after : path.close = { path with disk := some file.mFile, file := none } := by
    rw [CachePath.close, there]
  rw [after]
  exact reopens_iff positive rfl (sound.opened file there).image

theorem works_iff (positive : 0 < mItemSize) (action : Action) (sound : path.Sound mItemSize) :
    Works mItemSize action path ↔ Reaches mItemSize action path := by
  cases action with
  | close =>
      refine forall_congr' fun isOpen => ?_
      obtain ⟨file, there⟩ := Option.ne_none_iff_exists'.mp isOpen
      rw [close_reopens_iff positive sound there,
        (sound.opened file there).image.full_iff positive]
  | _ => exact Iff.rfl

theorem Sound.step (positive : 0 < mItemSize) (action : Action) (sound : path.Sound mItemSize)
    (works : Works mItemSize action path) : (step mItemSize action path).Sound mItemSize := by
  cases action with
  | openFile always_create cb => exact sound.openFile positive always_create cb
  | add itemData => exact sound.add positive itemData
  | write item itemData => exact sound.write positive item itemData
  | writeOffset item offset data => exact sound.writeOffset item offset data
  | flush => exact sound.flush
  | close =>
      cases there : path.file with
      | none =>
          rw [CachePath.step, CachePath.close, there]
          exact sound
      | some file =>
          have whole := (close_reopens_iff positive sound there).mp (works (by simp [there]))
          rw [CachePath.step, CachePath.close, there]
          refine ⟨fun _ none_ => (by cases none_), fun _ content disk => ?_⟩
          cases disk
          exact ⟨(sound.opened file there).image, whole⟩

end Steps

/-- Over any number of rounds, a file opens again with what was stored exactly when, each
time that it is closed, the last byte of its last item has been written. -/
theorem run_reopens_iff (mItemSize : Nat) (positive : 0 < mItemSize) (actions : List Action) :
    TotalStep.Along (step mItemSize) (Works mItemSize) actions create ↔
      TotalStep.Along (step mItemSize) (Reaches mItemSize) actions create :=
  TotalStep.along_iff (Sound mItemSize) (fun action _ sound works => sound.step positive action works)
    (fun action _ sound => works_iff positive action sound) actions (create_sound mItemSize)

/-- Two rounds: an item is reserved, another one added behind it, and the first one written
in the second round. -/
theorem run_reopens_rounds : TotalStep.Along (step 2) (Works 2)
    [.openFile false true, .add none, .add (some [1, 2]), .close, .openFile false true,
      .writeOffset 0 1 [3], .close] create := by
  refine (run_reopens_iff 2 (by decide) _).mpr ?_
  refine ⟨trivial, trivial, trivial, fun _ => Or.inr rfl, trivial, trivial, fun _ => Or.inr rfl,
    trivial⟩

/-- An item that is reserved at the end and not written is lost, and one that is written in
part keeps the file from being opened. -/
theorem run_loses :
    ¬ TotalStep.Along (step 2) (Works 2) [.openFile false true, .add none, .close] create ∧
    ¬ TotalStep.Along (step 2) (Works 2)
      [.openFile false true, .add none, .writeOffset 0 0 [7], .close] create := by
  constructor
  · rintro ⟨_, _, works, _⟩
    obtain ⟨file, opened⟩ := works (by decide)
    cases opened
  · rintro ⟨_, _, _, works, _⟩
    obtain ⟨file, opened⟩ := works (by decide)
    cases opened

end CachePath

end Sbf
