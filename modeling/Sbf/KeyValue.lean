import Sbf.StringParts
import Sbf.TportStreams

set_option autoImplicit false

namespace Sbf

open Octets

/-- `struct sbfKeyValueImpl`: keys in the order of `strcmp`. -/
abbrev KeyValue := RbTree CString CString

namespace KeyValue

/-- `mSize` -/
def size (table : KeyValue) : Nat := table.entries.length

/-- `sbfKeyValue_get` -/
def get (table : KeyValue) (key : CString) : Option CString := table.find key

/-- `sbfKeyValue_remove` -/
def remove (table : KeyValue) (key : CString) : KeyValue := table.erase key

/-- `sbfKeyValue_put` -/
def put (table : KeyValue) (key value : CString) : KeyValue :=
  RbTree.insert (remove table key) key value

theorem get_put (table : KeyValue) (key other value : CString) :
    get (put table key value) other = if other = key then some value else get table other := by
  have gone : (remove table key).find key = none := by
    rw [remove, RbTree.find_erase, if_pos rfl]
  rw [get, put, RbTree.insert_none gone, RbTree.find_set, remove, RbTree.find_erase]
  by_cases here : other = key
  · rw [if_pos here, if_pos here]
  · rw [if_neg here, if_neg here, if_neg here, get]

end KeyValue

/-- Tables by their addresses. -/
structure Tables where
  heap : Heap KeyValue
  fresh : Nat

namespace Tables

/-- What `calloc` returns is not in use. -/
def Sound (tables : Tables) : Prop := ∀ id, tables.fresh ≤ id → tables.heap.find id = none

/-- A table on the heap that holds what `sbfKeyValue_create` and the calls of
`sbfKeyValue_put` after it have made. -/
def create (table : KeyValue) (tables : Tables) : Nat × Tables :=
  (tables.fresh, ⟨tables.heap.set tables.fresh table, tables.fresh + 1⟩)

/-- `sbfKeyValue_destroy` -/
def destroy (id : Nat) (tables : Tables) : Except Fault Tables := do
  let _ ← tables.heap.read id
  return { tables with heap := tables.heap.erase id }

/-- A table and its removal leave the others as they were. -/
theorem erase_set {heap : Heap KeyValue} {id : Nat} (absent : heap.find id = none)
    (table : KeyValue) : (heap.set id table).erase id = heap := by
  apply RbTree.ext_find
  intro key
  rw [RbTree.find_erase, RbTree.find_set]
  split
  case isTrue here => rw [here, absent]
  case isFalse => rfl

end Tables

end Sbf
