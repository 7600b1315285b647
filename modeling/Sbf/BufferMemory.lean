import Sbf.PubSend
import Sbf.TportStreams

set_option autoImplicit false

namespace Sbf

open Octets

/-- Buffers by their addresses, which are given out in order and never again, and the
addresses in the order in which they were freed. -/
structure BufferMemory where
  buffers : Heap Buffer
  fresh : Nat
  freed : List Nat
  numbered : ∀ id buffer, buffers.find id = some buffer → id < fresh

namespace BufferMemory

def empty : BufferMemory := ⟨.empty, 0, [], fun _ _ found => by cases found⟩

/-- A new buffer, at the next address. -/
def obtain (buffer : Buffer) (memory : BufferMemory) : BufferMemory where
  buffers := memory.buffers.set memory.fresh buffer
  fresh := memory.fresh + 1
  freed := memory.freed
  numbered := RbTree.forall_set (Nat.lt_succ_self _)
    (fun id buffer _ found => Nat.lt_succ_of_lt (memory.numbered id buffer found))

/-- `sbfBuffer_destroy` -/
def destroy (id : Nat) (memory : BufferMemory) : Except Fault BufferMemory :=
  match found : memory.buffers.find id with
  | none => .error .freed
  | some buffer =>
      if buffer.mRefCount = 1 then
        .ok {
          buffers := memory.buffers.erase id
          fresh := memory.fresh
          freed := memory.freed ++ [id]
          numbered := fun other buffer kept =>
            memory.numbered other buffer (RbTree.find_erase_some kept).2 }
      else
        .ok {
          buffers := memory.buffers.set id { buffer with mRefCount := buffer.mRefCount - 1 }
          fresh := memory.fresh
          freed := memory.freed
          numbered := RbTree.forall_set (memory.numbered id buffer found)
            (fun other buffer _ => memory.numbered other buffer) }

/-- A part of the memory is as it was: neither freed nor changed. -/
structure Kept (before after : BufferMemory) (ids : Nat → Prop) : Prop where
  fresh : before.fresh ≤ after.fresh
  buffers : ∀ id, ids id → after.buffers.find id = before.buffers.find id
  freed : ∀ id, ids id → after.freed.count id = before.freed.count id

/-- Buffers that have been freed exactly once since. -/
def Freed (before after : BufferMemory) (ids : Nat → Prop) : Prop :=
  ∀ id, ids id → after.buffers.find id = none ∧ after.freed.count id = before.freed.count id + 1

theorem Kept.refl (memory : BufferMemory) (ids : Nat → Prop) : Kept memory memory ids :=
  ⟨Nat.le_refl _, fun _ _ => rfl, fun _ _ => rfl⟩

theorem Kept.trans {first second third : BufferMemory} {ids : Nat → Prop}
    (one : Kept first second ids) (two : Kept second third ids) : Kept first third ids :=
  ⟨Nat.le_trans one.fresh two.fresh,
    fun id inside => (two.buffers id inside).trans (one.buffers id inside),
    fun id inside => (two.freed id inside).trans (one.freed id inside)⟩

theorem Kept.mono {before after : BufferMemory} {ids others : Nat → Prop}
    (kept : Kept before after ids) (fewer : ∀ id, others id → ids id) : Kept before after others :=
  ⟨kept.fresh, fun id inside => kept.buffers id (fewer id inside),
    fun id inside => kept.freed id (fewer id inside)⟩

theorem obtain_kept (buffer : Buffer) (memory : BufferMemory) :
    Kept memory (memory.obtain buffer) (· < memory.fresh) where
  fresh := Nat.le_succ _
  buffers id old := by rw [obtain, RbTree.find_set, if_neg (Nat.ne_of_lt old)]
  freed _ _ := rfl

@[simp] theorem obtain_find (buffer : Buffer) (memory : BufferMemory) :
    (memory.obtain buffer).buffers.find memory.fresh = some buffer := RbTree.find_set_self _ _ _

/-- The last reference to a buffer frees it, and touches nothing else. -/
theorem destroy_last (memory : BufferMemory) (id : Nat) (buffer : Buffer)
    (found : memory.buffers.find id = some buffer) (last : buffer.mRefCount = 1) :
    ∃ after, memory.destroy id = .ok after ∧ after.fresh = memory.fresh ∧
      Kept memory after (· ≠ id) ∧ Freed memory after (· = id) := by
  unfold destroy
  split
  · rename_i missing
    cases missing.symm.trans found
  · rename_i other same
    cases same.symm.trans found
    rw [if_pos last]
    refine ⟨_, rfl, rfl, ⟨Nat.le_refl _, ?_, ?_⟩, ?_⟩
    · intro other differs
      exact (RbTree.find_erase _ _ _).trans (if_neg differs)
    · intro other differs
      simp [differs.symm]
    · rintro _ rfl
      exact ⟨(RbTree.find_erase _ _ _).trans (if_pos rfl), by simp⟩

/-- Destroy one buffer after the other. -/
def destroyAll : List Nat → BufferMemory → Except Fault BufferMemory
  | [], memory => .ok memory
  | id :: rest, memory => memory.destroy id >>= destroyAll rest

/-- Distinct buffers that nobody else holds are all freed, and no others. -/
theorem destroyAll_last (ids : List Nat) (distinct : ids.Nodup) (memory : BufferMemory)
    (last : ∀ id ∈ ids, ∃ buffer, memory.buffers.find id = some buffer ∧ buffer.mRefCount = 1) :
    ∃ after, destroyAll ids memory = .ok after ∧ after.fresh = memory.fresh ∧
      Kept memory after (· ∉ ids) ∧ Freed memory after (· ∈ ids) := by
  induction ids generalizing memory with
  | nil => exact ⟨memory, rfl, rfl, .refl _ _, fun id inside => by cases inside⟩
  | cons id rest ih =>
      obtain ⟨absent, distinct⟩ := List.nodup_cons.mp distinct
      obtain ⟨buffer, found, held⟩ := last id List.mem_cons_self
      obtain ⟨middle, destroyed, fresh, kept, freed⟩ := memory.destroy_last id buffer found held
      obtain ⟨after, ran, fresh', kept', freed'⟩ := ih distinct middle (by
        intro other inside
        rw [kept.buffers other (fun same => absent (same ▸ inside))]
        exact last other (List.mem_cons_of_mem _ inside))
      refine ⟨after, by simp only [destroyAll, destroyed, ran, bind, Except.bind],
        fresh'.trans fresh, ?_, ?_⟩
      · refine (kept.mono ?_).trans (kept'.mono ?_)
        · rintro other outside rfl
          exact outside List.mem_cons_self
        · exact fun other outside inside => outside (List.mem_cons_of_mem _ inside)
      · intro other inside
        rcases List.mem_cons.mp inside with rfl | inside
        · obtain ⟨gone, count⟩ := freed other rfl
          exact ⟨(kept'.buffers other absent).trans gone, (kept'.freed other absent).trans count⟩
        · obtain ⟨gone, count⟩ := freed' other inside
          exact ⟨gone, by rw [count, kept.freed other (fun same => absent (same ▸ inside))]⟩

end BufferMemory

end Sbf
