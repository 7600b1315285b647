import Sbf.KeyValue
import Sbf.SysTreeWalks

set_option autoImplicit false

/-! The tables of `sbfKeyValue.c` as they are in memory: blocks with an item, its key and its
value, linked into a red-black tree. -/

namespace Sbf

open Octets RedBlack

/-- Where an item is: `impl` on the stack of a lookup, or a block. -/
inductive ItemPtr where
  | impl
  | block (address : Nat)
deriving DecidableEq, Repr

/-- `struct sbfKeyValueItemImpl`: the string at `mKey`, and the bytes allocated behind the item.
The tree entry is in the heap of the tree. -/
structure KeyValueItem where
  mKey : CString
  mKeySize : Nat
  behind : Bytes

/-- What the C library does: `strcmp` orders strings, and `calloc` returns a block that is not
in use. A block that was freed may hold anything. -/
structure CLibrary where
  strcmp : CString → CString → Int
  orders : SysTree.Orders strcmp
  calloc : List Nat → Nat
  fresh : ∀ live, calloc live ∉ live
  garbage : ItemPtr → KeyValueItem
  links : ItemPtr → NodeLinks ItemPtr

/-- `struct sbfKeyValueImpl` with the memory of its items; `live` are the blocks that were
allocated and not freed. -/
structure KeyValueItems where
  mTree : LinkHeap ItemPtr
  mSize : UInt32
  item : ItemPtr → KeyValueItem
  live : List Nat

namespace KeyValueItem

/-- What `put` writes into a block of zeros. -/
def new (key value : CString) : KeyValueItem where
  mKey := key
  mKeySize := key.chars.length + 1
  behind := (key.chars ++ [0]) ++ (value.chars ++ [0])

/-- The string that `sbfKeyValueGetValue` points at has its end inside of the block. -/
def Readable (item : KeyValueItem) : Prop := 0 ∈ item.behind.drop item.mKeySize

instance (item : KeyValueItem) : Decidable item.Readable := inferInstanceAs (Decidable (_ ∈ _))

def value (item : KeyValueItem) : CString :=
  ⟨(item.behind.drop item.mKeySize).takeWhile (· ≠ 0), fun zero => by
    have kept := List.mem_takeWhile_imp zero
    simp at kept⟩

theorem new_drop (key value : CString) :
    (new key value).behind.drop (new key value).mKeySize = value.chars ++ [0] :=
  List.drop_left' (by simp [new])

theorem new_readable (key value : CString) : (new key value).Readable := by
  rw [Readable, new_drop]
  exact List.mem_append_right _ List.mem_cons_self

theorem new_value (key value : CString) : (new key value).value = value := by
  apply CString.ext
  change ((new key value).behind.drop (new key value).mKeySize).takeWhile (· ≠ 0) = _
  rw [new_drop]
  exact takeWhile_terminated value.chars [] value.plain

end KeyValueItem

namespace KeyValueItems

/-- `sbfKeyValue_create` -/
def create (c : CLibrary) : KeyValueItems := ⟨⟨none, c.links⟩, 0, c.garbage, []⟩

def mKey (table : KeyValueItems) (item : ItemPtr) : CString := (table.item item).mKey

/-- `sbfKeyValueGetValue` -/
def getValue (table : KeyValueItems) (item : ItemPtr) : Except Fault CString :=
  if (table.item item).Readable then .ok (table.item item).value else .error .outside

/-- `RB_FIND` of an `impl` with the key. -/
def find (c : CLibrary) (fuel : Nat) (table : KeyValueItems) (key : CString) :
    Except Fault (Option ItemPtr) :=
  SysTree.find c.strcmp (Function.update table.mKey .impl key) table.mTree fuel .impl

/-- `sbfKeyValue_get` -/
def get (c : CLibrary) (fuel : Nat) (table : KeyValueItems) (key : CString) :
    Except Fault (Option CString) := do
  match ← table.find c fuel key with
  | none => .ok none
  | some item => do .ok (some (← table.getValue item))

/-- `free` of an item. -/
def free (c : CLibrary) (table : KeyValueItems) (item : ItemPtr) : Except Fault KeyValueItems :=
  match item with
  | .impl => .error .freed
  | .block address =>
      if address ∈ table.live then
        .ok { table with
          mTree := table.mTree.write item (c.links item)
          item := Function.update table.item item (c.garbage item)
          live := table.live.erase address }
      else .error .freed

/-- `sbfKeyValue_remove` -/
def remove (c : CLibrary) (fuel : Nat) (table : KeyValueItems) (key : CString) :
    Except Fault KeyValueItems := do
  match ← table.find c fuel key with
  | none => .ok table
  | some item => do
      let (mTree, _) ← SysTree.remove fuel table.mTree item
      free c { table with mSize := table.mSize - 1, mTree } item

/-- `xcalloc`, and what `sbfKeyValue_put` stores in the block. -/
def allocate (c : CLibrary) (table : KeyValueItems) (key value : CString) : KeyValueItems :=
  let item := ItemPtr.block (c.calloc table.live)
  { mTree := table.mTree.write item ⟨none, none, none, .black⟩
    mSize := table.mSize + 1
    item := Function.update table.item item (.new key value)
    live := c.calloc table.live :: table.live }

/-- `sbfKeyValue_put`. The strings that are given do not lie in the table: the block of the key is
freed before they are copied. -/
def put (c : CLibrary) (fuel : Nat) (table : KeyValueItems) (key value : CString) :
    Except Fault KeyValueItems := do
  let table ← table.remove c fuel key
  let after := table.allocate c key value
  let (mTree, _) ← SysTree.insert c.strcmp after.mKey fuel after.mTree
    (.block (c.calloc table.live))
  .ok { after with mTree }

/-- A walk by `sbfKeyValue_first` and `sbfKeyValue_next`, from a cookie on. -/
def keysFrom (fuel : Nat) (table : KeyValueItems) :
    Nat → Option ItemPtr → Except Fault (List CString)
  | _, none => .ok []
  | 0, some _ => .error .endless
  | rounds + 1, some item => do
      let after ← SysTree.next table.mTree fuel item
      .ok (table.mKey item :: (← keysFrom fuel table rounds after))

/-- A walk over all keys. -/
def keys (fuel rounds : Nat) (table : KeyValueItems) : Except Fault (List CString) := do
  table.keysFrom fuel rounds (← SysTree.minmax table.mTree fuel (-1))

/-- `sbfKeyValue_copy` -/
def copy (c : CLibrary) (fuel rounds : Nat) (table : KeyValueItems) :
    Except Fault KeyValueItems := do
  (← SysTree.foreach table.mTree fuel rounds).foldlM
    (fun copy item => do copy.put c fuel (table.mKey item) (← table.getValue item)) (create c)

/-- `sbfKeyValue_destroy` -/
def destroy (c : CLibrary) (fuel rounds : Nat) (table : KeyValueItems) :
    Except Fault KeyValueItems := do
  let (mTree, items) ← SysTree.foreachSafe (fun item => some (c.links item)) table.mTree fuel rounds
  items.foldlM (free c) { table with mTree }

/-- The tree has the items, every block that is in use is one of them, and the items hold what
the table has. -/
structure Represents (table : KeyValueItems) (index : RbTree CString ItemPtr)
    (map : KeyValue) : Prop where
  tree : SysTree.Represents table.mTree table.mKey index
  live : ∀ item, index.find (table.mKey item) = some item ↔
    ∃ address ∈ table.live, item = .block address
  nodup : table.live.Nodup
  readable : ∀ address ∈ table.live, (table.item (.block address)).Readable
  values : map = index.map (fun item => (table.item item).value)
  size : table.mSize = UInt32.ofNat index.entries.length

variable (c : CLibrary) {fuel : Nat} {table : KeyValueItems} {index : RbTree CString ItemPtr}
  {map : KeyValue}

theorem create_represents : (create c).Represents RbTree.empty RbTree.empty where
  tree := SysTree.represents_init c.links _
  live := by simp [create, RbTree.find, RbTree.empty, RbTree.lookup]
  nodup := List.nodup_nil
  readable := fun _ inside => absurd inside List.not_mem_nil
  values := rfl
  size := rfl

namespace Represents

/-- What is found is a block in use. -/
theorem block (represents : table.Represents index map) {key : CString} {item : ItemPtr}
    (found : index.find key = some item) : ∃ address ∈ table.live, item = .block address := by
  refine (represents.live item).mp ?_
  rwa [represents.tree.key_of_find found]

/-- A lookup with `impl` finds the item. -/
theorem find (represents : table.Represents index map)
    (enough : 2 * Nat.log 2 (index.entries.length + 1) < fuel) (key : CString) :
    table.find c fuel key = .ok (index.find key) := by
  have stacked : SysTree.Represents table.mTree (Function.update table.mKey .impl key) index := by
    refine represents.tree.rekey fun item found => Function.update_of_ne ?_ _ _
    obtain ⟨address, -, rfl⟩ := represents.block found
    exact ItemPtr.noConfusion
  rw [KeyValueItems.find, SysTree.find_represents c.orders stacked enough, Function.update_self]

theorem getValue (represents : table.Represents index map) {key : CString} {item : ItemPtr}
    (found : index.find key = some item) :
    table.getValue item = .ok (table.item item).value := by
  obtain ⟨address, inside, rfl⟩ := represents.block found
  exact if_pos (represents.readable address inside)

theorem get (represents : table.Represents index map)
    (enough : 2 * Nat.log 2 (index.entries.length + 1) < fuel) (key : CString) :
    table.get c fuel key = .ok (map.get key) := by
  rw [KeyValueItems.get, represents.find c enough, KeyValue.get, represents.values, RbTree.find_map]
  cases found : index.find key with
  | none => rfl
  | some item =>
      change (do .ok (some (← table.getValue item)) : Except Fault (Option CString)) = _
      rw [represents.getValue found]
      rfl

/-- Without an item that was taken out of the tree. -/
theorem free (represents : table.Represents index map) {key : CString} {address : Nat}
    (found : index.find key = some (.block address)) {tree : LinkHeap ItemPtr}
    (shrunk : SysTree.Represents tree table.mKey (index.erase key))
    (size : (index.erase key).entries.length + 1 = index.entries.length) :
    Represents ⟨tree.write (.block address) (c.links (.block address)), table.mSize - 1,
      Function.update table.item (.block address) (c.garbage (.block address)),
      table.live.erase address⟩ (index.erase key) (map.remove key) where
  tree := by
    have outside (k : CString) : (index.erase key).find k ≠ some (.block address) := by
      intro there
      obtain ⟨apart, there⟩ := RbTree.find_erase_some there
      exact apart ((represents.tree.key_of_find there).symm.trans
        (represents.tree.key_of_find found))
    refine (shrunk.write (outside _) _).rekey fun item there => ?_
    have other : item ≠ .block address := by
      rintro rfl
      exact outside _ there
    simp only [mKey, Function.update_of_ne other]
  live := by
    intro item
    by_cases here : item = .block address
    · subst here
      constructor
      · intro there
        obtain ⟨apart, there⟩ := RbTree.find_erase_some there
        exact absurd ((represents.tree.key_of_find there).symm.trans
          (represents.tree.key_of_find found)) apart
      · rintro ⟨other, inside, same⟩
        cases same
        exact absurd rfl ((represents.nodup.mem_erase_iff).mp inside).1
    · simp only [mKey, Function.update_of_ne here]
      have before := represents.live item
      rw [mKey] at before
      constructor
      · intro there
        obtain ⟨other, inside, same⟩ := before.mp (RbTree.find_erase_some there).2
        refine ⟨other, (represents.nodup.mem_erase_iff).mpr ⟨?_, inside⟩, same⟩
        rintro rfl
        exact here same
      · rintro ⟨other, inside, same⟩
        have there := before.mpr ⟨other, List.mem_of_mem_erase inside, same⟩
        rw [RbTree.find_erase, if_neg]
        · exact there
        · intro equal
          rw [equal, found] at there
          exact here (Option.some.inj there).symm
  nodup := represents.nodup.erase address
  readable := by
    intro other inside
    obtain ⟨apart, inside⟩ := (represents.nodup.mem_erase_iff).mp inside
    change (Function.update table.item _ _ (.block other)).Readable
    rw [Function.update_of_ne (by simpa using apart)]
    exact represents.readable other inside
  values := by
    rw [KeyValue.remove, represents.values]
    refine RbTree.ext_find fun other => ?_
    rw [RbTree.find_erase, RbTree.find_map, RbTree.find_map, RbTree.find_erase]
    by_cases here : other = key
    · rw [if_pos here, if_pos here, Option.map_none]
    · rw [if_neg here, if_neg here]
      refine Option.map_congr fun item there => ?_
      change _ = (Function.update table.item _ _ item).value
      rw [Function.update_of_ne]
      rintro rfl
      exact here ((represents.tree.key_of_find there).symm.trans
        (represents.tree.key_of_find found))
  size := by
    rw [represents.size, ← size]
    simp

/-- Without the item that has the key. -/
theorem remove (represents : table.Represents index map)
    (enough : 2 * Nat.log 2 (index.entries.length + 1) < fuel) (key : CString) : ∃ after,
    table.remove c fuel key = .ok after ∧
      after.Represents (index.erase key) (map.remove key) ∧
      (index.erase key).entries.length ≤ index.entries.length := by
  cases found : index.find key with
  | none =>
      have same : index.erase key = index := by
        refine RbTree.ext_find fun other => ?_
        rw [RbTree.find_erase]
        split
        · rename_i here
          rw [here, found]
        · rfl
      have gone : map.remove key = map := by
        rw [KeyValue.remove, represents.values]
        refine RbTree.ext_find fun other => ?_
        rw [RbTree.find_erase]
        split
        · rename_i here
          rw [here, RbTree.find_map, found]
          rfl
        · rfl
      refine ⟨table, ?_, ?_, by rw [same]⟩
      · simp only [KeyValueItems.remove, represents.find c enough, found, bind, Except.bind]
      · rw [same, gone]
        exact represents
  | some item =>
      obtain ⟨address, inside, rfl⟩ := represents.block found
      have own := represents.tree.key_of_find found
      obtain ⟨tree, ran, shrunk, size⟩ :=
        SysTree.remove_represents represents.tree (own ▸ found) enough
      rw [own] at shrunk size
      refine ⟨⟨tree.write (.block address) (c.links (.block address)), table.mSize - 1,
        Function.update table.item (.block address) (c.garbage (.block address)),
        table.live.erase address⟩, ?_, ?_, by omega⟩
      · simp only [KeyValueItems.remove, represents.find c enough, found, ran, bind, Except.bind,
          KeyValueItems.free, inside, ↓reduceIte]
      · exact represents.free c found shrunk size

/-- With a new item for a key that the table does not have. -/
theorem insert (represents : table.Represents index map)
    (enough : 2 * Nat.log 2 (index.entries.length + 1) < fuel) {key : CString}
    (absent : index.find key = none) (value : CString) : ∃ tree,
    SysTree.insert c.strcmp (table.allocate c key value).mKey fuel (table.allocate c key value).mTree
        (.block (c.calloc table.live)) = .ok (tree, none) ∧
      { table.allocate c key value with mTree := tree }.Represents
        (index.set key (.block (c.calloc table.live))) (map.set key value) ∧
      (index.set key (.block (c.calloc table.live))).entries.length = index.entries.length + 1 := by
  have unused : ∀ k, index.find k ≠ some (.block (c.calloc table.live)) := by
    intro k found
    obtain ⟨address, inside, same⟩ := represents.block found
    cases same
    exact c.fresh table.live inside
  have named : (table.allocate c key value).mKey (.block (c.calloc table.live)) = key := by
    simp [allocate, mKey, KeyValueItem.new]
  have prepared : SysTree.Represents (table.allocate c key value).mTree
      (table.allocate c key value).mKey index := by
    refine (represents.tree.write (unused _) _).rekey fun item found => ?_
    have other : item ≠ .block (c.calloc table.live) := by
      rintro rfl
      exact unused _ found
    simp only [mKey, allocate, Function.update_of_ne other]
  have inserted := @SysTree.insert_represents _ _ _ _ _ _ _ _ _ (.block (c.calloc table.live))
    c.orders prepared enough
  rw [named, absent] at inserted
  obtain ⟨tree, ran, grown, size⟩ := inserted
  refine ⟨tree, ran, ⟨grown, ?_, ?_, ?_, ?_, ?_⟩, size⟩
  · intro item
    by_cases here : item = .block (c.calloc table.live)
    · subst here
      rw [RbTree.find_set]
      constructor
      · exact fun _ => ⟨_, List.mem_cons_self, rfl⟩
      · exact fun _ => if_pos named
    · have before := represents.live item
      simp only [mKey, allocate, Function.update_of_ne here] at before ⊢
      constructor
      · intro there
        rcases RbTree.find_set_some there with ⟨-, same⟩ | ⟨-, there⟩
        · exact absurd same here
        · obtain ⟨address, inside, same⟩ := before.mp there
          exact ⟨address, List.mem_cons_of_mem _ inside, same⟩
      · rintro ⟨address, inside, same⟩
        rcases List.mem_cons.mp inside with rfl | inside
        · exact absurd same here
        · have there := before.mpr ⟨address, inside, same⟩
          rw [RbTree.find_set, if_neg]
          · exact there
          · intro equal
            rw [equal, absent] at there
            cases there
  · exact List.nodup_cons.mpr ⟨c.fresh table.live, represents.nodup⟩
  · intro address inside
    change (Function.update table.item _ _ (.block address)).Readable
    rcases List.mem_cons.mp inside with rfl | inside
    · rw [Function.update_self]
      exact KeyValueItem.new_readable key value
    · rw [Function.update_of_ne]
      · exact represents.readable address inside
      · rintro same
        exact c.fresh table.live (ItemPtr.block.inj same ▸ inside)
  · rw [represents.values]
    refine RbTree.ext_find fun other => ?_
    rw [RbTree.find_set, RbTree.find_map, RbTree.find_map, RbTree.find_set]
    split
    · change _ = some (Function.update table.item _ _ _).value
      rw [Function.update_self, KeyValueItem.new_value]
    · refine Option.map_congr fun item there => ?_
      change _ = (Function.update table.item _ _ item).value
      rw [Function.update_of_ne]
      rintro rfl
      exact unused _ there
  · change table.mSize + 1 = _
    rw [size, represents.size]
    simp

/-- A key gets a value. -/
theorem put (represents : table.Represents index map)
    (enough : 2 * Nat.log 2 (index.entries.length + 1) < fuel) (key value : CString) :
    ∃ after index', table.put c fuel key value = .ok after ∧
      after.Represents index' (map.put key value) ∧
      index'.entries.length ≤ index.entries.length + 1 := by
  obtain ⟨bare, ran, removed, fewer⟩ := represents.remove c enough key
  have absent : (index.erase key).find key = none := by
    rw [RbTree.find_erase, if_pos rfl]
  have gone : (map.remove key).find key = none := by
    rw [KeyValue.remove, RbTree.find_erase, if_pos rfl]
  obtain ⟨tree, inserted, done, size⟩ :=
    removed.insert c (SysTree.room_of_le fewer enough) absent value
  refine ⟨{ bare.allocate c key value with mTree := tree }, _, ?_, ?_,
    size.le.trans (Nat.succ_le_succ fewer)⟩
  · simp only [KeyValueItems.put, ran, inserted, bind, Except.bind]
  · rw [KeyValue.put, RbTree.insert_none gone]
    exact done

end Represents

end KeyValueItems

end Sbf
