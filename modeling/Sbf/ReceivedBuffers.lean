import Sbf.ReceiveMemory

set_option autoImplicit false

/-! The buffers of the receive path: those that wrap a part of a packet hold it. -/

namespace Sbf.Receiving

open Octets

/-- How many buffers are wrapped around a part of this one. -/
def wraps (memory : RefMemory ReceivedBuffer) (id : Nat) : Nat :=
  memory.tally (fun buffer => buffer.mDestroyCb = .handlerBuffer id)

/-- The counts are right for the references from outside and those of the wrapping
buffers, and what wraps a buffer is newer. -/
structure BuffersSound (memory : RefMemory ReceivedBuffer) (outer : Nat → Nat) : Prop where
  counted : memory.Sound (fun id => outer id + wraps memory id)
  older : ∀ id buffer closure, memory.find id = some buffer →
    buffer.mDestroyCb = .handlerBuffer closure → closure < id

/-- Buffers with a property are where they were. -/
def Kept (before after : RefMemory ReceivedBuffer) (ids : Nat → Prop) : Prop :=
  ∀ id, ids id → after.find id = before.find id

/-- No buffer that was read into is left. -/
def Unread (memory : RefMemory ReceivedBuffer) : Prop :=
  ∀ id data, memory.find id = some data → data.mDestroyCb ≠ .null

theorem unread_congr {before after : RefMemory ReceivedBuffer}
    (same : ∀ id, after.find id = before.find id) : Unread after ↔ Unread before := by
  simp only [Unread, same]

/-- A change that leaves the `mDestroyCb` of a buffer alone. -/
theorem unread_modify {before after : RefMemory ReceivedBuffer} {id : Nat}
    {old new : ReceivedBuffer} (found : before.find id = some old)
    (finds : ∀ other, after.find other = if other = id then some new else before.find other)
    (same : new.mDestroyCb = old.mDestroyCb) : Unread after ↔ Unread before := by
  constructor
  · intro unread other data there
    by_cases here : other = id
    · rw [here, found] at there
      cases there
      rw [← same]
      exact unread id new (by rw [finds, if_pos rfl])
    · exact unread other data (by rw [finds, if_neg here, there])
  · intro unread other data there
    rw [finds] at there
    split at there
    · cases there
      rw [same]
      exact unread id old found
    · exact unread other data there

/-- A buffer goes that is not from the pool. -/
theorem unread_erased {before after : RefMemory ReceivedBuffer} {id : Nat}
    {buffer : ReceivedBuffer} (found : before.find id = some buffer)
    (finds : ∀ other, after.find other = if other = id then none else before.find other)
    (apart : buffer.mDestroyCb ≠ .null) : Unread after ↔ Unread before := by
  constructor
  · intro unread other data there
    by_cases here : other = id
    · rw [here, found] at there
      cases there
      exact apart
    · exact unread other data (by rw [finds, if_neg here, there])
  · intro unread other data there
    rw [finds] at there
    split at there
    · cases there
    · exact unread other data there

theorem empty_buffersSound : BuffersSound .empty (fun _ => 0) where
  counted := RefMemory.empty_sound
  older id buffer closure found := by cases found

section Buffers

variable {memory : RefMemory ReceivedBuffer} {outer outer' : Nat → Nat}
  (sound : BuffersSound memory outer)
include sound

theorem BuffersSound.congr (same : ∀ id, outer' id = outer id) : BuffersSound memory outer' := by
  have equal : outer' = outer := funext same
  rwa [equal]

theorem BuffersSound.held (id : Nat) (held : 0 < outer id) :
    ∃ buffer, memory.find id = some buffer :=
  Option.isSome_iff_exists.mp
    ((sound.counted.find_isSome id).mpr (Nat.lt_of_lt_of_le held (Nat.le_add_right _ _)))

theorem BuffersSound.addRef (id : Nat) (outer' : Nat → Nat) (held : 0 < outer id)
    (more : ∀ other, outer' other = outer other + if other = id then 1 else 0) :
    ∃ after, memory.addRef id = some after ∧ BuffersSound after outer' ∧
      RefMemory.Same memory after := by
  obtain ⟨after, ran, counted, same⟩ := sound.counted.addRef id
    (fun other => outer' other + wraps memory other)
    (Nat.lt_of_lt_of_le held (Nat.le_add_right _ _)) (by
      intro other
      have one := more other
      omega)
  refine ⟨after, ran, ⟨counted.congr ?_, ?_⟩, same⟩
  · intro other
    simp only [wraps, same.tally]
  · intro other buffer closure found
    rw [same.find] at found
    exact sound.older other buffer closure found

/-- A change of a buffer that leaves its `mDestroyCb` alone. -/
theorem BuffersSound.modify (id : Nat) (held : 0 < outer id)
    (f : ReceivedBuffer → ReceivedBuffer)
    (same : ∀ buffer, (f buffer).mDestroyCb = buffer.mDestroyCb) :
    ∃ after buffer, memory.find id = some buffer ∧ memory.modify f id = some after ∧
      BuffersSound after outer ∧
      ∀ other, after.find other = if other = id then some (f buffer) else memory.find other := by
  obtain ⟨after, buffer, found, ran, counted, finds, tally, _⟩ := sound.counted.modify
    id (Nat.lt_of_lt_of_le held (Nat.le_add_right _ _)) f
  refine ⟨after, buffer, found, ran, ⟨counted.congr ?_, ?_⟩, finds⟩
  · intro other
    simp only [wraps]
    rw [tally]
    simp only [same]
  · intro other changed closure there
    rw [finds] at there
    split at there
    · rename_i here
      rw [← Option.some.inj there, same, here]
      exact sound.older id buffer closure found
    · exact sound.older other changed closure there

/-- A new buffer; one that wraps another takes over a reference to it. -/
theorem BuffersSound.obtain (buffer : ReceivedBuffer) (outer' : Nat → Nat)
    (older : ∀ closure, buffer.mDestroyCb = .handlerBuffer closure → closure < memory.fresh)
    (more : ∀ id, outer' id + (if buffer.mDestroyCb = .handlerBuffer id then 1 else 0) =
      outer id + if id = memory.fresh then 1 else 0) :
    BuffersSound (memory.obtain buffer) outer' where
  counted := by
    refine sound.counted.obtain buffer ?_
    intro id
    have one := more id
    simp only [wraps, sound.counted.tally_obtain]
    by_cases closes : buffer.mDestroyCb = .handlerBuffer id
    · simp only [closes, if_true, decide_true, Bool.toNat_true] at one ⊢
      omega
    · simp only [closes, if_false, decide_false, Bool.toNat_false] at one ⊢
      omega
  older id found closure there closes := by
    rw [RefMemory.find_obtain] at there
    split at there
    · rename_i here
      cases there
      rw [here]
      exact older closure closes
    · exact sound.older id found closure there closes

/-- A buffer comes that is not from the pool. -/
theorem BuffersSound.unread_obtain {buffer : ReceivedBuffer} (apart : buffer.mDestroyCb ≠ .null) :
    Unread (memory.obtain buffer) ↔ Unread memory := by
  have absent : memory.find memory.fresh = none := by
    rw [RefMemory.find, sound.counted.fresh _ (Nat.le_refl _)]
    rfl
  have found : (memory.obtain buffer).find memory.fresh = some buffer := by
    rw [RefMemory.find_obtain, if_pos rfl]
  refine (unread_erased found (fun other => ?_) apart).symm
  rw [RefMemory.find_obtain]
  by_cases here : other = memory.fresh
  · rw [if_pos here, here, absent]
  · rw [if_neg here, if_neg here]

/-- `sbfBuffer_destroy` drops one reference and, with the last one to a wrapping buffer,
the one that this held; every buffer that still has a holder stays. Without its pool the last
reference to what was read into cannot be dropped. -/
theorem BuffersSound.destroy (pool : Bool) (fuel id : Nat) (enough : id < fuel)
    (outer' : Nat → Nat)
    (less : ∀ other, outer other = outer' other + if other = id then 1 else 0) :
    (∃ after, destroyBuffer pool fuel id memory = .ok after ∧ BuffersSound after outer' ∧
      Kept memory after (0 < outer' ·) ∧ (pool = false → (Unread after ↔ Unread memory))) ∨
    (pool = false ∧ ¬ Unread memory ∧ destroyBuffer pool fuel id memory = .error .freed) := by
  induction fuel generalizing id memory outer outer' with
  | zero => omega
  | succ fuel ih =>
      have here := less id
      rw [if_pos rfl] at here
      obtain ⟨after, buffer, found, counted, _, stays | goes⟩ := sound.counted.drop
        id (fun other => outer' other + wraps memory other) (by omega) (by
          intro other
          have one := less other
          omega)
      · obtain ⟨_, ran, same⟩ := stays
        refine .inl ⟨after, by simp only [destroyBuffer, ran, alive, bind, Except.bind, pure,
          Except.pure], ⟨counted.congr ?_, ?_⟩, fun other _ => same.find other,
          fun _ => unread_congr same.find⟩
        · intro other
          simp only [wraps, same.tally]
        · intro other kept closure there
          rw [same.find] at there
          exact sound.older other kept closure there
      · obtain ⟨last, ran, finds, tally⟩ := goes
        have kept : Kept memory after (0 < outer' ·) := by
          intro other held
          rw [finds, if_neg]
          rintro rfl
          omega
        have older : ∀ other buffer closure, after.find other = some buffer →
            buffer.mDestroyCb = .handlerBuffer closure → closure < other := by
          intro other kept closure there
          rw [finds] at there
          split at there
          · cases there
          · exact sound.older other kept closure there
        have fewer : ∀ other, wraps after other +
            (if buffer.mDestroyCb = .handlerBuffer other then 1 else 0) = wraps memory other := by
          intro other
          have one := tally (fun buffer => buffer.mDestroyCb = .handlerBuffer other)
          by_cases closes : buffer.mDestroyCb = .handlerBuffer other
          · simpa [wraps, closes] using one
          · simpa [wraps, closes] using one
        have plain (apart : ∀ closure, buffer.mDestroyCb ≠ .handlerBuffer closure) :
            BuffersSound after outer' := by
          refine ⟨counted.congr ?_, older⟩
          intro other
          have one := fewer other
          rw [if_neg (apart other)] at one
          omega
        have unread := unread_erased found finds
        obtain ⟨mData, mDestroyCb, mLocked⟩ := buffer
        cases mDestroyCb with
        | handlerBuffer closure =>
            have inner : BuffersSound after
                (fun other => outer' other + if other = closure then 1 else 0) := by
              refine ⟨counted.congr ?_, older⟩
              intro other
              have one := fewer other
              simp only [BufferDestroyCb.handlerBuffer.injEq, eq_comm (a := closure)] at one
              omega
            have new := sound.older id _ closure found rfl
            have onward : destroyBuffer pool (fuel + 1) id memory =
                destroyBuffer pool fuel closure after := by
              simp only [destroyBuffer, ran, alive, bind, Except.bind]
            have same : Unread after ↔ Unread memory := unread (by simp)
            rw [onward]
            obtain ⟨final, finished, final_sound, still, unread⟩ | ⟨lost, read, failed⟩ :=
              ih inner closure (by omega) outer' (fun _ => rfl)
            · exact .inl ⟨final, finished, final_sound,
                fun other held => (still other held).trans (kept other held),
                fun lost => (unread lost).trans same⟩
            · exact .inr ⟨lost, mt same.mpr read, failed⟩
        | null =>
            have result : destroyBuffer pool (fuel + 1) id memory =
                if pool then .ok after else .error .freed := by
              simp only [destroyBuffer, ran, alive, bind, Except.bind]
              rfl
            rw [result]
            cases pool with
            | true => exact .inl ⟨after, rfl, plain (by simp), kept, fun lost => by cases lost⟩
            | false => exact .inr ⟨rfl, fun unread => unread id _ found rfl, rfl⟩
        | fragmentBuffer =>
            refine .inl ⟨after, ?_, plain (by simp), kept, fun _ => unread (by simp)⟩
            simp only [destroyBuffer, ran, alive, bind, Except.bind, pure, Except.pure]

end Buffers

end Sbf.Receiving
