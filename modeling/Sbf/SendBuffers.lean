import Sbf.Batch
import Sbf.BufferMemory
import Sbf.PubRoundTrip

set_option autoImplicit false

/-! The buffers of the send path: who obtains one and who destroys it. The handlers'
`mSendBuffer` reads a buffer and leaves it to the caller. -/

namespace Sbf

open Octets

/-- What a send does to the buffers in memory, and the packets it hands to the handler. -/
abbrev Sends := Step Fault BufferMemory Bytes

/-- `sbfBuffer_destroy`, which hands out nothing. -/
def BufferMemory.destroying (id : Nat) : Sends := fun memory => (memory.destroy id).map (·, [])

namespace Tport

/-- A round of the loop in `sbfTport_fragment`: a buffer from the handler is filled and
handed to `mSendBuffer`, and that is the last of it. -/
def sendFragment (packet : Bytes) : Sends := fun memory =>
  .ok (memory.obtain ((Buffer.new packet.length).write packet), [packet])

/-- `sbfTport_fragment`, by its buffers. -/
def fragmentBuffers (mPacketSize : UInt16) (data : Bytes) (hdr : HeaderBlock) (hdrSize : Nat) :
    Sends := fun memory => do
  let packets ← Tport.fragment mPacketSize data hdr hdrSize
  Step.all (packets.map sendFragment) memory

end Tport

namespace Pub

variable (mPacketSize : UInt16) (pub : Pub)

/-- `sbfPub_sendBuffer`, by its buffers. -/
def sendingBuffer (send : Bytes → Sends) (id : Nat) : Sends := fun memory => do
  let buffer ← memory.buffers.read id
  if buffer.mRefCount ≠ 1 then .error .assertion
  else if buffer.data.length > messageSizeLimit then BufferMemory.destroying id memory
  else if pub.mDestroyed || !pub.mReady then BufferMemory.destroying id memory
  else if buffer.data.length + pub.mHeaderSize > mPacketSize.toNat then
    (Tport.fragmentBuffers mPacketSize buffer.data pub.mHeader pub.mHeaderSize).andThen
      (BufferMemory.destroying id) memory
  else if buffer.mOwner ≠ some pub.self then
    (send buffer.data).andThen (BufferMemory.destroying id) memory
  else
    match buffer.front with
    | none => .error .outside
    | some front =>
        let hdr := { front.hdr with
          mSize := UInt16.ofNat buffer.data.length
          mFlags := TportHeader.lastInPacket }
        Step.andThen (fun memory => .ok (memory, [Block.bytes ⟨⟨hdr, front.area⟩, buffer.data⟩]))
          (BufferMemory.destroying id) memory

/-- `sbfPub_send`, by its buffers; see `sendNested`. -/
def sending : Nat → Bytes → Sends
  | 0, _ => fun _ => .error .endless
  | fuel + 1, data => fun memory =>
      pub.sendingBuffer mPacketSize (sending fuel) memory.fresh
        (memory.obtain ((pub.getBuffer mPacketSize data.length).write data))

/-- `sbfPub_send` -/
def sendIn (data : Bytes) : Sends := pub.sending mPacketSize 2 data

/-- `sbfPub_sendBuffer` -/
def sendBufferIn (id : Nat) : Sends := pub.sendingBuffer mPacketSize (pub.sending mPacketSize 2) id

/-- The message does not go out in fragments: it is refused, or it fits a packet. -/
def Unfragmented (data : Bytes) : Prop :=
  data.length > messageSizeLimit ∨ (pub.mDestroyed || !pub.mReady) = true ∨
    data.length + pub.mHeaderSize ≤ mPacketSize.toNat

instance (data : Bytes) : Decidable (pub.Unfragmented mPacketSize data) :=
  inferInstanceAs (Decidable (_ ∨ _))

end Pub

namespace Tport

/-- The fragments' buffers all stay. -/
theorem sendFragments (packets : List Bytes) (memory : BufferMemory) :
    ∃ after, Step.all (packets.map sendFragment) memory = .ok (after, packets) ∧
      after.fresh = memory.fresh + packets.length ∧
      BufferMemory.Kept memory after (· < memory.fresh) ∧
      ∀ id, memory.fresh ≤ id → id < after.fresh → (after.buffers.find id).isSome := by
  induction packets generalizing memory with
  | nil => exact ⟨memory, rfl, rfl, .refl _ _, fun id old new => absurd new (Nat.not_lt.mpr old)⟩
  | cons packet rest ih =>
      obtain ⟨after, ran, fresh, kept, there⟩ :=
        ih (memory.obtain ((Buffer.new packet.length).write packet))
      have first : sendFragment packet memory =
          .ok (memory.obtain ((Buffer.new packet.length).write packet), [packet]) := rfl
      refine ⟨after, ?_, ?_, ?_, ?_⟩
      · rw [List.map_cons, Step.all_cons, Step.andThen_ok_ok first ran, List.singleton_append]
      · rw [fresh, List.length_cons]
        simp only [BufferMemory.obtain]
        omega
      · exact (BufferMemory.obtain_kept _ memory).trans
          (kept.mono (fun id old => Nat.lt_succ_of_lt old))
      · intro id old new
        by_cases here : id = memory.fresh
        · rw [here, kept.buffers memory.fresh (Nat.lt_succ_self _), BufferMemory.obtain_find]
          rfl
        · exact there id (show memory.fresh + 1 ≤ id by omega) new

/-- A message that is not empty makes a fragment. -/
theorem fragment_ne_nil {mPacketSize : UInt16} {data : Bytes} {hdr : HeaderBlock} {hdrSize : Nat}
    {packets : List Bytes} (some_bytes : data ≠ [])
    (ran : Tport.fragment mPacketSize data hdr hdrSize = .ok packets) : packets ≠ [] := by
  unfold Tport.fragment at ran
  split at ran
  · cases ran
  · rw [fragmentLoop, if_pos (List.length_pos_of_ne_nil some_bytes)] at ran
    obtain ⟨rest, _, shape⟩ := bind_ok ran
    cases shape
    exact List.cons_ne_nil _ _

end Tport

namespace Pub

/-- What a send that comes back has done to the memory: the buffers passed to it are gone
and those of others are there. When no fragments were needed, all the buffers that it
obtained are gone as well, and otherwise some of them have stayed. -/
structure Outcome (before after : BufferMemory) (passed : Nat → Prop) (whole : Prop) : Prop where
  kept : BufferMemory.Kept before after (fun id => id < before.fresh ∧ ¬ passed id)
  freed : whole → BufferMemory.Freed before after
    (fun id => passed id ∨ (before.fresh ≤ id ∧ id < after.fresh))
  stays : ¬ whole → ∃ id, before.fresh ≤ id ∧ id < after.fresh ∧ (after.buffers.find id).isSome

section Outcome

variable {mPacketSize : UInt16} {pub : Pub} {memory after : BufferMemory} {packets : List Bytes}

/-- Destroying the buffer that was passed, after a step that leaves it alone. -/
theorem Outcome.thenDestroy {step : Sends} {whole : Prop} {id : Nat} {buffer : Buffer}
    (each : ∀ after packets, step memory = .ok (after, packets) →
      Outcome memory after (fun _ => False) whole)
    (found : memory.buffers.find id = some buffer) (last : buffer.mRefCount = 1)
    (ran : step.andThen (BufferMemory.destroying id) memory = .ok (after, packets)) :
    Outcome memory after (· = id) whole := by
  obtain ⟨middle, out, more, one, two, _⟩ := Step.andThen_inv ran
  have first := each middle out one
  have old := memory.numbered id buffer found
  have found' : middle.buffers.find id = some buffer := by
    rw [first.kept.buffers id ⟨old, not_false⟩, found]
  obtain ⟨final, destroyed, fresh, kept, freed⟩ :=
    BufferMemory.destroy_last middle id buffer found' last
  simp only [BufferMemory.destroying, destroyed, Except.map] at two
  cases two
  refine ⟨?_, ?_, ?_⟩
  · exact (first.kept.mono (fun other inside => ⟨inside.1, not_false⟩)).trans
      (kept.mono (fun other inside => inside.2))
  · rintro fits other (rfl | ⟨above, below⟩)
    · obtain ⟨gone, count⟩ := freed other rfl
      exact ⟨gone, by rw [count, first.kept.freed other ⟨old, not_false⟩]⟩
    · have differs : other ≠ id := by omega
      obtain ⟨gone, count⟩ := first.freed fits other (Or.inr ⟨above, by omega⟩)
      exact ⟨(kept.buffers other differs).trans gone, (kept.freed other differs).trans count⟩
  · intro long
    obtain ⟨other, above, below, there⟩ := first.stays long
    have differs : other ≠ id := by omega
    exact ⟨other, above, by omega, by rw [kept.buffers other differs]; exact there⟩

/-- A step that does nothing to the memory. -/
theorem Outcome.idle {whole : Prop} (fits : whole) :
    Outcome memory memory (fun _ => False) whole where
  kept := .refl _ _
  freed _ id inside := by
    rcases inside with absurd | ⟨above, below⟩
    · exact absurd.elim
    · omega
  stays long := absurd fits long

theorem fragmentBuffers_outcome {data : Bytes} {hdr : HeaderBlock} {hdrSize : Nat} {whole : Prop}
    (long : ¬ whole) (some_bytes : hdrSize ≤ mPacketSize.toNat → data ≠ [])
    (ran : Tport.fragmentBuffers mPacketSize data hdr hdrSize memory = .ok (after, packets)) :
    Outcome memory after (fun _ => False) whole := by
  obtain ⟨fragments, cut, ran⟩ := bind_ok ran
  obtain ⟨final, sent, fresh, kept, there⟩ := Tport.sendFragments fragments memory
  cases sent.symm.trans ran
  refine ⟨kept.mono (fun id inside => inside.1), fun fits => absurd fits long, fun _ => ?_⟩
  have started : hdrSize ≤ mPacketSize.toNat := by
    by_contra short
    rw [Tport.fragment, if_pos (by omega)] at cut
    cases cut
  have positive := List.length_pos_of_ne_nil (Tport.fragment_ne_nil (some_bytes started) cut)
  exact ⟨memory.fresh, Nat.le_refl _, by omega, there _ (Nat.le_refl _) (by omega)⟩

/-- `sbfPub_sendBuffer`, whatever it sends a foreign buffer again by. -/
theorem sendingBuffer_outcome {again : Bytes → Sends}
    (each : ∀ data memory after packets, again data memory = .ok (after, packets) →
      Outcome memory after (fun _ => False) (pub.Unfragmented mPacketSize data))
    {id : Nat} {buffer : Buffer} (found : memory.buffers.find id = some buffer)
    (ran : pub.sendingBuffer mPacketSize again id memory = .ok (after, packets)) :
    Outcome memory after (· = id) (pub.Unfragmented mPacketSize buffer.data) := by
  obtain ⟨buffer', read, ran⟩ := bind_ok ran
  obtain rfl := Option.some.inj (found.symm.trans (Heap.find_of_read read))
  have skipped : ∀ {after packets}, BufferMemory.destroying id memory = .ok (after, packets) →
      (Step.andThen Step.skip (BufferMemory.destroying id)) memory = .ok (after, packets) := by
    intro after packets ran
    rw [Step.skip_andThen]
    exact ran
  split at ran
  · cases ran
  · rename_i last
    have last : buffer.mRefCount = 1 := not_not.mp last
    split at ran
    · rename_i big
      refine Outcome.thenDestroy ?_ found last (skipped ran)
      rintro _ _ ⟨⟩
      exact .idle (Or.inl big)
    · rename_i small
      split at ran
      · rename_i held
        refine Outcome.thenDestroy ?_ found last (skipped ran)
        rintro _ _ ⟨⟩
        exact .idle (Or.inr (Or.inl held))
      · rename_i free
        split at ran
        · rename_i long
          refine Outcome.thenDestroy (fun _ _ => fragmentBuffers_outcome ?_ ?_) found last ran
          · rintro (big | held | fits)
            · exact small big
            · exact free held
            · omega
          · rintro started empty
            rw [empty, List.length_nil] at long
            omega
        · rename_i fits
          have whole : pub.Unfragmented mPacketSize buffer.data :=
            Or.inr (Or.inr (Nat.not_lt.mp fits))
          split at ran
          · exact Outcome.thenDestroy (fun _ _ => each _ _ _ _) found last ran
          · split at ran
            · cases ran
            · refine Outcome.thenDestroy ?_ found last ran
              rintro _ _ ⟨⟩
              exact .idle whole

/-- `sbfPub_send`, which is passed no buffer. -/
theorem sending_outcome (fuel : Nat) {data : Bytes}
    (ran : pub.sending mPacketSize fuel data memory = .ok (after, packets)) :
    Outcome memory after (fun _ => False) (pub.Unfragmented mPacketSize data) := by
  induction fuel generalizing data memory after packets with
  | zero => cases ran
  | succ fuel ih =>
      have sent := sendingBuffer_outcome (fun _ _ _ _ => ih) (BufferMemory.obtain_find _ _) ran
      rw [write_data] at sent
      have opened := BufferMemory.obtain_kept
        ((pub.getBuffer mPacketSize data.length).write data) memory
      have above : memory.fresh + 1 ≤ after.fresh := sent.kept.fresh
      refine ⟨?_, ?_, ?_⟩
      · refine (opened.mono (fun id inside => inside.1)).trans (sent.kept.mono ?_)
        intro id inside
        exact ⟨Nat.lt_succ_of_lt inside.1, Nat.ne_of_lt inside.1⟩
      · rintro fits id (none_passed | ⟨old, new⟩)
        · exact none_passed.elim
        · refine sent.freed fits id ?_
          by_cases here : id = memory.fresh
          · exact Or.inl here
          · exact Or.inr ⟨show memory.fresh + 1 ≤ id by omega, new⟩
      · intro long
        obtain ⟨id, old, new, there⟩ := sent.stays long
        exact ⟨id, Nat.le_of_succ_le old, new, there⟩

end Outcome

section Packets

variable {mPacketSize : UInt16} {pub : Pub} {memory : BufferMemory}

/-- Destroying a buffer that a step leaves alone changes nothing about the packets. -/
theorem thenDestroy_packets {step : Sends} {whole : Prop} {id : Nat} {buffer : Buffer}
    (each : ∀ after packets, step memory = .ok (after, packets) →
      Outcome memory after (fun _ => False) whole)
    (found : memory.buffers.find id = some buffer) (last : buffer.mRefCount = 1) :
    (step.andThen (BufferMemory.destroying id) memory).map (·.2) = (step memory).map (·.2) := by
  cases ran : step memory with
  | error failure => rw [Step.andThen_error ran]
  | ok result =>
      obtain ⟨middle, out⟩ := result
      have found' : middle.buffers.find id = some buffer := by
        rw [(each middle out ran).kept.buffers id ⟨memory.numbered id buffer found, not_false⟩, found]
      obtain ⟨final, destroyed, _⟩ := BufferMemory.destroy_last middle id buffer found' last
      have dropped : BufferMemory.destroying id middle = .ok (final, []) := by
        rw [BufferMemory.destroying, destroyed]
        rfl
      rw [Step.andThen_ok_ok ran dropped, List.append_nil]
      rfl

theorem fragmentBuffers_packets (data : Bytes) (hdr : HeaderBlock) (hdrSize : Nat) :
    (Tport.fragmentBuffers mPacketSize data hdr hdrSize memory).map (·.2) =
      Tport.fragment mPacketSize data hdr hdrSize := by
  unfold Tport.fragmentBuffers
  cases Tport.fragment mPacketSize data hdr hdrSize with
  | error failure => rfl
  | ok packets =>
      obtain ⟨after, sent, _⟩ := Tport.sendFragments packets memory
      simp only [bind, Except.bind, sent, Except.map]

/-- The packets are those of the send path without the memory. -/
theorem sendingBuffer_packets {again : Bytes → Sends} {again' : Bytes → Except Fault (List Bytes)}
    (each : ∀ data memory after packets, again data memory = .ok (after, packets) →
      Outcome memory after (fun _ => False) (pub.Unfragmented mPacketSize data))
    (same : ∀ data memory, (again data memory).map (·.2) = again' data)
    {id : Nat} {buffer : Buffer} (found : memory.buffers.find id = some buffer) :
    (pub.sendingBuffer mPacketSize again id memory).map (·.2) =
      pub.sendBufferBy mPacketSize again' buffer := by
  simp only [sendingBuffer, sendBufferBy, Heap.read_some found, bind, Except.bind]
  by_cases last : buffer.mRefCount = 1
  · have quiet : (BufferMemory.destroying id memory).map (·.2) = .ok [] := by
      obtain ⟨final, destroyed, _⟩ := BufferMemory.destroy_last memory id buffer found last
      rw [BufferMemory.destroying, destroyed]
      rfl
    rw [if_neg (not_not.mpr last), if_neg (not_not.mpr last)]
    split
    · exact quiet
    · split
      · exact quiet
      · split
        · rename_i small free long
          have loose : ∀ after packets, Tport.fragmentBuffers mPacketSize buffer.data pub.mHeader
              pub.mHeaderSize memory = .ok (after, packets) →
              Outcome memory after (fun _ => False) False := by
            refine fun _ _ => fragmentBuffers_outcome not_false ?_
            rintro started empty
            rw [empty, List.length_nil] at long
            omega
          rw [thenDestroy_packets loose found last, fragmentBuffers_packets]
        · split
          · rw [thenDestroy_packets (fun _ _ => each _ _ _ _) found last, same]
          · cases buffer.front with
            | none => rfl
            | some front =>
                let packet := Block.bytes ⟨⟨{ front.hdr with
                  mSize := UInt16.ofNat buffer.data.length
                  mFlags := TportHeader.lastInPacket }, front.area⟩, buffer.data⟩
                let direct : Sends := fun memory => .ok (memory, [packet])
                have idle : ∀ after packets, direct memory = .ok (after, packets) →
                    Outcome memory after (fun _ => False) True := by
                  rintro _ _ ⟨⟩
                  exact .idle trivial
                exact thenDestroy_packets idle found last
  · rw [if_pos last, if_pos last]
    rfl

theorem sending_packets (fuel : Nat) (data : Bytes) :
    (pub.sending mPacketSize fuel data memory).map (·.2) = pub.sendNested mPacketSize fuel data := by
  induction fuel generalizing data memory with
  | zero => rfl
  | succ fuel ih =>
      exact sendingBuffer_packets (fun _ _ _ _ => sending_outcome fuel) (fun _ _ => ih _)
        (BufferMemory.obtain_find _ _)

end Packets

end Pub

/-- The buffers in the deque of an item. -/
def BatchItem.held (item : BatchItem) : Nat := (item.mBuffers ++ item.mCurrent.toList).length

/-- A batch with the memory, and the addresses of the buffers in its items' deques. -/
structure BatchMemory where
  batch : Batch
  memory : BufferMemory
  mBuffers : List Nat

namespace BatchMemory

def create : BatchMemory := ⟨.create, .empty, []⟩

/-- New buffers of the size of a packet for the deque of an item. -/
def obtain (mPacketSize : UInt16) : Nat → BatchMemory → BatchMemory
  | 0, state => state
  | count + 1, state =>
      obtain mPacketSize count { state with
        memory := state.memory.obtain (.new mPacketSize.toNat)
        mBuffers := state.mBuffers ++ [state.memory.fresh] }

/-- `sbfBatch_add`, which obtains the buffers that the stream's item has more of. -/
def add (mPacketSize : UInt16) (pub : Pub) (data : Bytes) (state : BatchMemory) :
    Except Fault BatchMemory := do
  let batch ← state.batch.add mPacketSize pub data
  let more := (batch.item pub.mTportStream).held - (state.batch.item pub.mTportStream).held
  return obtain mPacketSize more { state with batch := batch }

/-- `sbfBatch_send`, which destroys each buffer after it was sent. -/
def send (state : BatchMemory) : Except Fault (BatchMemory × List (StreamId × Bytes)) := do
  let memory ← state.memory.destroyAll state.mBuffers
  return (⟨state.batch.send.1, memory, []⟩, state.batch.send.2)

def step (mPacketSize : UInt16) : Batch.Call → Step Fault BatchMemory (StreamId × Bytes)
  | .add pub data => fun state => (state.add mPacketSize pub data).map (·, [])
  | .send => send

def run (mPacketSize : UInt16) (calls : List Batch.Call) :
    Step Fault BatchMemory (StreamId × Bytes) :=
  Step.all (calls.map (step mPacketSize))

/-- Every buffer that was ever obtained is either in a deque, and nobody else's, or has
been freed once. -/
structure Owned (state : BatchMemory) : Prop where
  distinct : state.mBuffers.Nodup
  held : ∀ id ∈ state.mBuffers, id < state.memory.fresh ∧ state.memory.freed.count id = 0 ∧
    ∃ buffer, state.memory.buffers.find id = some buffer ∧ buffer.mRefCount = 1
  others : ∀ id, id < state.memory.fresh → id ∉ state.mBuffers →
    state.memory.buffers.find id = none ∧ state.memory.freed.count id = 1
  past : ∀ id ∈ state.memory.freed, id < state.memory.fresh

theorem create_owned : create.Owned where
  distinct := List.nodup_nil
  held _ member := by cases member
  others _ old := absurd old (Nat.not_lt_zero _)
  past _ member := by cases member

theorem Owned.obtain (mPacketSize : UInt16) (count : Nat) {state : BatchMemory}
    (owned : state.Owned) : (obtain mPacketSize count state).Owned := by
  induction count generalizing state with
  | zero => exact owned
  | succ count ih =>
      have kept := BufferMemory.obtain_kept (.new mPacketSize.toNat) state.memory
      have unused : state.memory.fresh ∉ state.mBuffers := fun member =>
        Nat.lt_irrefl _ (owned.held _ member).1
      apply ih
      refine ⟨?_, ?_, ?_, ?_⟩
      · rw [List.nodup_append]
        refine ⟨owned.distinct, List.nodup_singleton _, ?_⟩
        intro id inside other last
        rw [List.mem_singleton.mp last]
        rintro rfl
        exact unused inside
      · intro id member
        rcases List.mem_append.mp member with inside | last
        · obtain ⟨old, unfreed, buffer, found, refs⟩ := owned.held id inside
          exact ⟨Nat.lt_succ_of_lt old, unfreed, buffer, (kept.buffers id old).trans found, refs⟩
        · obtain rfl := List.mem_singleton.mp last
          refine ⟨Nat.lt_succ_self _, ?_, _, BufferMemory.obtain_find _ _, rfl⟩
          exact List.count_eq_zero.mpr (fun gone => Nat.lt_irrefl _ (owned.past _ gone))
      · intro id old outside
        rw [List.mem_append, List.mem_singleton, not_or] at outside
        have older : id < state.memory.fresh :=
          Nat.lt_of_le_of_ne (Nat.le_of_lt_succ old) outside.2
        obtain ⟨gone, count⟩ := owned.others id older outside.1
        exact ⟨(kept.buffers id older).trans gone, count⟩
      · exact fun id gone => Nat.lt_succ_of_lt (owned.past id gone)

/-- Sending frees all that is in the deques. -/
theorem Owned.send {state : BatchMemory} (owned : state.Owned) :
    ∃ after packets, state.send = .ok (after, packets) ∧ after.Owned ∧ after.mBuffers = [] ∧
      packets = state.batch.send.2 := by
  obtain ⟨memory, destroyed, fresh, kept, freed⟩ := BufferMemory.destroyAll_last state.mBuffers
    owned.distinct state.memory (fun id member => (owned.held id member).2.2)
  have all : ∀ id, id < memory.fresh → memory.buffers.find id = none ∧ memory.freed.count id = 1 := by
    intro id old
    by_cases member : id ∈ state.mBuffers
    · obtain ⟨gone, count⟩ := freed id member
      exact ⟨gone, by rw [count, (owned.held id member).2.1]⟩
    · obtain ⟨gone, count⟩ := owned.others id (fresh ▸ old) member
      exact ⟨(kept.buffers id member).trans gone, (kept.freed id member).trans count⟩
  refine ⟨⟨state.batch.send.1, memory, []⟩, state.batch.send.2, ?_, ⟨List.nodup_nil, ?_, ?_, ?_⟩, rfl,
    rfl⟩
  · simp only [BatchMemory.send, destroyed, bind, Except.bind, pure, Except.pure]
  · exact List.forall_mem_nil _
  · exact fun id old _ => all id old
  · intro id gone
    have positive : 0 < memory.freed.count id := List.count_pos_iff.mpr gone
    dsimp only at gone ⊢
    by_contra new
    have outside : id ∉ state.mBuffers := fun member => new (fresh ▸ (owned.held id member).1)
    rw [kept.freed id outside] at positive
    exact new (fresh ▸ owned.past id (List.count_pos_iff.mp positive))

theorem Owned.run {mPacketSize : UInt16} (calls : List Batch.Call) {state after : BatchMemory}
    {packets : List (StreamId × Bytes)} (owned : state.Owned)
    (ran : run mPacketSize calls state = .ok (after, packets)) : after.Owned := by
  induction calls generalizing state packets with
  | nil =>
      cases ran
      exact owned
  | cons call rest ih =>
      obtain ⟨middle, out, more, one, two, _⟩ := Step.andThen_inv ran
      refine ih ?_ two
      cases call with
      | add pub data =>
          obtain ⟨batch, _, added⟩ := bind_ok (silent_ok one).1
          cases added
          exact Owned.obtain _ _ ⟨owned.distinct, owned.held, owned.others, owned.past⟩
      | send =>
          obtain ⟨_, _, sent, owned', _⟩ := owned.send
          cases sent.symm.trans one
          exact owned'

end BatchMemory

namespace Pub

/-- Every buffer that a call has obtained, and the one that it was passed, is destroyed
exactly once: after `sbfPub_sendBuffer` and `sbfPub_send` exactly when the message is not
sent in fragments, and after `sbfBatch_send` always. -/
theorem buffers_released_iff (mPacketSize : UInt16) (pub : Pub) :
    (∀ memory id buffer after packets, memory.buffers.find id = some buffer →
      pub.sendBufferIn mPacketSize id memory = .ok (after, packets) →
      (BufferMemory.Freed memory after
          (fun other => other = id ∨ (memory.fresh ≤ other ∧ other < after.fresh)) ↔
        pub.Unfragmented mPacketSize buffer.data)) ∧
    (∀ memory data after packets, pub.sendIn mPacketSize data memory = .ok (after, packets) →
      (BufferMemory.Freed memory after (fun other => memory.fresh ≤ other ∧ other < after.fresh) ↔
        pub.Unfragmented mPacketSize data)) ∧
    (∀ calls after packets,
      BatchMemory.run mPacketSize (calls ++ [.send]) .create = .ok (after, packets) →
      BufferMemory.Freed .empty after.memory (· < after.memory.fresh)) := by
  refine ⟨?_, ?_, ?_⟩
  · intro memory id buffer after packets found ran
    have sent := sendingBuffer_outcome (fun _ _ _ _ => sending_outcome 2) found ran
    refine ⟨fun freed => ?_, sent.freed⟩
    by_contra long
    obtain ⟨other, old, new, there⟩ := sent.stays long
    rw [(freed other (Or.inr ⟨old, new⟩)).1] at there
    cases there
  · intro memory data after packets ran
    have sent := sending_outcome 2 ran
    refine ⟨fun freed => ?_, fun fits other inside => sent.freed fits other (Or.inr inside)⟩
    by_contra long
    obtain ⟨other, old, new, there⟩ := sent.stays long
    rw [(freed other ⟨old, new⟩).1] at there
    cases there
  · intro calls after packets ran
    rw [BatchMemory.run, List.map_append, Step.all_append] at ran
    obtain ⟨middle, out, more, one, two, _⟩ := Step.andThen_inv ran
    rw [List.map_singleton, Step.all_cons, Step.all_nil, Step.andThen_skip] at two
    obtain ⟨_, _, sent, owned, empty, _⟩ := (BatchMemory.create_owned.run calls one).send
    cases sent.symm.trans two
    intro id old
    exact owned.others id old (by rw [empty]; exact List.not_mem_nil)

/-- A short message leaves nothing behind, whether it is sent from its bytes, from a
buffer or in a batch. -/
theorem buffers_released_ticker :
    (∃ after packets, ticker.sendBufferIn 20 0
        (BufferMemory.empty.obtain ((ticker.getBuffer 20 1).write [7])) = .ok (after, packets) ∧
      BufferMemory.Freed (BufferMemory.empty.obtain ((ticker.getBuffer 20 1).write [7])) after
        (fun other => other = 0 ∨ (1 ≤ other ∧ other < after.fresh))) ∧
    (∃ after packets, ticker.sendIn 20 [7] .empty = .ok (after, packets) ∧
      BufferMemory.Freed .empty after (fun other => 0 ≤ other ∧ other < after.fresh)) ∧
    ∃ after packets, BatchMemory.run 20 ([.add ticker [7]] ++ [.send]) .create =
        .ok (after, packets) ∧ BufferMemory.Freed .empty after.memory (· < after.memory.fresh) :=
  have released := buffers_released_iff 20 ticker
  ⟨⟨_, _, rfl, (released.1 _ 0 _ _ _ (BufferMemory.obtain_find _ _) rfl).mpr (by decide)⟩,
    ⟨_, _, rfl, (released.2.1 _ [7] _ _ rfl).mpr (by decide)⟩,
    _, _, rfl, released.2.2 [.add ticker [7]] _ _ rfl⟩

/-- Of a message in two fragments both fragments' buffers stay. -/
theorem fragments_leaked : ∃ after,
    ticker.sendIn 20 [1, 2, 3, 4, 5, 6] .empty =
      .ok (after, [tickPacket 1 false [1, 2, 3, 4], tickPacket 2 true [5, 6]]) ∧
    after.freed = [0] ∧ after.fresh = 3 ∧ (after.buffers.find 1).isSome ∧
    ¬ BufferMemory.Freed .empty after (fun other => 0 ≤ other ∧ other < after.fresh) := by
  refine ⟨_, rfl, rfl, rfl, rfl, ?_⟩
  intro freed
  cases (freed 1 ⟨by decide, by decide⟩).1

end Pub

end Sbf
