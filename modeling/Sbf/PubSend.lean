import Sbf.TportFragment

set_option autoImplicit false

namespace Sbf

open Octets

/-- The fields of `struct sbfBufferImpl` on the send path: the bytes at `mData`
and, when the publisher laid one out, the header right in front of them. -/
structure Buffer where
  front : Option HeaderBlock
  data : Bytes
  mOwner : Option PubId
  mRefCount : Nat
  deriving DecidableEq

namespace Buffer

/-- `sbfBuffer_new`. The bytes are not initialized; zeros stand for them. -/
def new (size : Nat) : Buffer := ⟨none, List.replicate size 0, none, 1⟩

/-- Fill the data of a buffer. -/
def write (buffer : Buffer) (data : Bytes) : Buffer := { buffer with data := data }

end Buffer

namespace Pub

variable (mPacketSize : UInt16) (pub : Pub)

/-- `sbfPub_getBuffer`. It compares the bare size with the packet size, so the
buffer may come to more than a packet with its header. -/
def getBuffer (size : Nat) : Buffer :=
  if pub.mDestroyed || !pub.mReady then .new size
  else if size > mPacketSize.toNat then .new size
  else { Buffer.new size with front := some pub.mHeader, mOwner := some pub.self }

/-- `sbfPub_sendBuffer`, with the packets it puts on the stream; `send` is what a
buffer that is not the publisher's own is sent again by. -/
def sendBufferBy (send : Bytes → Except Fault (List Bytes)) (buffer : Buffer) :
    Except Fault (List Bytes) :=
  if buffer.mRefCount ≠ 1 then .error .assertion
  else if buffer.data.length > messageSizeLimit then .ok []
  else if pub.mDestroyed || !pub.mReady then .ok []
  else if buffer.data.length + pub.mHeaderSize > mPacketSize.toNat then
    Tport.fragment mPacketSize buffer.data pub.mHeader pub.mHeaderSize
  else if buffer.mOwner ≠ some pub.self then send buffer.data
  else
    match buffer.front with
    | none => .error .outside
    | some front =>
        let hdr := { front.hdr with
          mSize := UInt16.ofNat buffer.data.length
          mFlags := TportHeader.lastInPacket }
        .ok [Block.bytes ⟨⟨hdr, front.area⟩, buffer.data⟩]

/-- `sbfPub_send`, which `sbfPub_sendBuffer` may call again. -/
def sendNested : Nat → Bytes → Except Fault (List Bytes)
  | 0, _ => .error .endless
  | fuel + 1, data =>
      pub.sendBufferBy mPacketSize (sendNested fuel)
        ((pub.getBuffer mPacketSize data.length).write data)

/-- `sbfPub_send` -/
def send (data : Bytes) : Except Fault (List Bytes) := pub.sendNested mPacketSize 2 data

/-- `sbfPub_sendBuffer` -/
def sendBuffer (buffer : Buffer) : Except Fault (List Bytes) :=
  pub.sendBufferBy mPacketSize (pub.sendNested mPacketSize 2) buffer

/-- A buffer as applications hand it in: not shared, and with the publisher's
header in front when the publisher owns it. -/
structure Usable (pub : Pub) (buffer : Buffer) : Prop where
  unshared : buffer.mRefCount = 1
  headed : buffer.mOwner = some pub.self → buffer.front = some pub.mHeader

theorem getBuffer_usable (size : Nat) (data : Bytes) :
    pub.Usable ((pub.getBuffer mPacketSize size).write data) := by
  unfold getBuffer
  split
  · exact ⟨rfl, fun owned => by cases owned⟩
  · split
    · exact ⟨rfl, fun owned => by cases owned⟩
    · exact ⟨rfl, fun _ => rfl⟩

@[simp] theorem write_data (buffer : Buffer) (data : Bytes) : (buffer.write data).data = data := rfl

/-- Packets that are one block of the publisher each, marked as the last. -/
def Headed (topic : Topic) (packets : List Bytes) : Prop :=
  ∀ packet ∈ packets, ∃ fragNum flags payload,
    packet = (block topic fragNum flags payload).bytes ∧
      (block topic fragNum flags payload).hdr.isLastInPacket = true

theorem block_lastInPacket (topic : Topic) (fragNum : UInt8) (payload : Bytes) :
    (block topic fragNum TportHeader.lastInPacket payload).hdr.isLastInPacket = true := by
  simp only [block, TportHeader.isLastInPacket]
  decide

private theorem map_ok {α β : Type} {f : α → β} {result : Except Fault α} {value : β}
    (ran : result.map f = .ok value) : ∃ before, result = .ok before ∧ f before = value := by
  cases result with
  | error failure => cases ran
  | ok before =>
      cases ran
      exact ⟨before, rfl, rfl⟩

theorem fragmentLoop_headed (topic : Topic) (data : Bytes) (fuel offset : Nat) (fragnum : UInt8)
    (packets : List Bytes)
    (ran : Tport.fragmentLoop mPacketSize (makeHeader topic) (headerSize topic) data fuel offset
      fragnum = .ok packets) : Headed topic packets := by
  induction fuel generalizing offset fragnum packets with
  | zero => cases ran
  | succ fuel ih =>
      by_cases inside : offset < data.length
      · rw [fragmentLoop_step topic mPacketSize data fuel offset fragnum inside] at ran
        obtain ⟨rest, later, rfl⟩ := map_ok ran
        intro packet member
        rcases List.mem_cons.mp member with rfl | member
        · exact ⟨_, _, _, rfl, fragmentFlags_isLastInPacket _ _ _ _⟩
        · exact ih _ _ _ later packet member
      · simp only [Tport.fragmentLoop, if_neg inside] at ran
        cases ran
        exact List.forall_mem_nil _

/-- Whatever is sent, for a topic of any length and in any number of fragments. -/
theorem sendBufferBy_headed (again : Bytes → Except Fault (List Bytes))
    (repeated : ∀ data packets, again data = .ok packets → Headed pub.mTopic packets)
    (buffer : Buffer) (usable : pub.Usable buffer) (packets : List Bytes)
    (ran : pub.sendBufferBy mPacketSize again buffer = .ok packets) :
    Headed pub.mTopic packets := by
  unfold sendBufferBy at ran
  split at ran
  · cases ran
  split at ran
  · cases ran
    exact List.forall_mem_nil _
  split at ran
  · cases ran
    exact List.forall_mem_nil _
  split at ran
  · simp only [Tport.fragment, pub.made.1, pub.made.2] at ran
    split at ran
    · cases ran
    · exact fragmentLoop_headed mPacketSize pub.mTopic _ _ _ _ packets ran
  split at ran
  · exact repeated _ packets ran
  · rename_i owned
    rw [usable.headed (not_not.mp owned), pub.made.1] at ran
    cases ran
    intro packet member
    rw [List.mem_singleton.mp member]
    exact ⟨0, TportHeader.lastInPacket, buffer.data, rfl, block_lastInPacket _ _ _⟩

theorem sendNested_headed (fuel : Nat) (data : Bytes) (packets : List Bytes)
    (ran : pub.sendNested mPacketSize fuel data = .ok packets) : Headed pub.mTopic packets := by
  induction fuel generalizing data packets with
  | zero => cases ran
  | succ fuel ih =>
      exact sendBufferBy_headed mPacketSize pub _ ih _ (pub.getBuffer_usable mPacketSize _ _)
        packets ran

/-- No guard of `sbfPub_sendBuffer` holds the message back. -/
structure Unguarded (payload : Bytes) : Prop where
  ready : pub.mReady = true
  alive : pub.mDestroyed = false
  limited : payload.length ≤ messageSizeLimit

/-- What a send relies on: the publisher can send, its header is well formed and
not longer than a packet, and the payload fits into 255 fragments. -/
structure CanSend (payload : Bytes) : Prop extends pub.Unguarded payload where
  named : pub.mTopic.mTopic.chars.length ≤ 249
  larger : pub.mHeaderSize ≤ mPacketSize.toNat
  few : payload.length ≤ 255 * (mPacketSize.toNat - pub.mHeaderSize)

/-- Past the guards three ways are left: in fragments, again as a copy, or as the
one block that the buffer already is. -/
theorem sendBufferBy_unguarded (payload : Bytes) (can : pub.Unguarded payload)
    (again : Bytes → Except Fault (List Bytes)) (buffer : Buffer)
    (usable : pub.Usable buffer) (content : buffer.data = payload) :
    pub.sendBufferBy mPacketSize again buffer =
      if payload.length + pub.mHeaderSize > mPacketSize.toNat then
        Tport.fragment mPacketSize payload pub.mHeader pub.mHeaderSize
      else if buffer.mOwner ≠ some pub.self then again payload
      else .ok [(block pub.mTopic 0 TportHeader.lastInPacket payload).bytes] := by
  subst content
  have small : ¬ buffer.data.length > messageSizeLimit := Nat.not_lt.mpr can.limited
  simp only [sendBufferBy, usable.unshared, ne_eq, not_true_eq_false, ↓reduceIte, if_neg small,
    can.ready, can.alive, Bool.not_true, Bool.or_self, Bool.false_eq_true]
  split
  · rfl
  · by_cases owned : buffer.mOwner = some pub.self
    · simp only [owned, not_true_eq_false, ↓reduceIte, usable.headed owned, pub.made.1]
      rfl
    · simp only [owned, not_false_eq_true, ↓reduceIte]

section Sends

variable (payload : Bytes) (can : pub.CanSend mPacketSize payload)
include can

/-- A payload that fits goes out as one block, from a buffer of another owner by
way of a copy. -/
theorem sendBufferBy_direct (fuel : Nat) (buffer : Buffer) (usable : pub.Usable buffer)
    (content : buffer.data = payload)
    (fits : payload.length + pub.mHeaderSize ≤ mPacketSize.toNat) :
    pub.sendBufferBy mPacketSize (pub.sendNested mPacketSize (fuel + 1)) buffer =
      .ok [(block pub.mTopic 0 TportHeader.lastInPacket payload).bytes] := by
  have short : ¬ payload.length + pub.mHeaderSize > mPacketSize.toNat := Nat.not_lt.mpr fits
  have own : ((pub.getBuffer mPacketSize payload.length).write payload).mOwner =
      some pub.self := by
    have bare : ¬ payload.length > mPacketSize.toNat := by omega
    simp only [Buffer.write, getBuffer, can.alive, can.ready, Bool.not_true, Bool.or_self,
      Bool.false_eq_true, ↓reduceIte, if_neg bare]
  have copied : pub.sendNested mPacketSize (fuel + 1) payload =
      .ok [(block pub.mTopic 0 TportHeader.lastInPacket payload).bytes] := by
    rw [sendNested, sendBufferBy_unguarded mPacketSize pub payload can.toUnguarded _ _
      (pub.getBuffer_usable mPacketSize _ _) rfl, if_neg short, own]
    simp only [ne_eq, not_true_eq_false, ↓reduceIte]
  rw [sendBufferBy_unguarded mPacketSize pub payload can.toUnguarded _ buffer usable content, if_neg short]
  split
  · exact copied
  · rfl

/-- A longer payload goes out in fragments. -/
theorem sendBufferBy_long (again : Bytes → Except Fault (List Bytes)) (buffer : Buffer)
    (usable : pub.Usable buffer) (content : buffer.data = payload)
    (long : ¬ payload.length + pub.mHeaderSize ≤ mPacketSize.toNat) :
    pub.sendBufferBy mPacketSize again buffer =
      Tport.fragment mPacketSize payload (makeHeader pub.mTopic) (headerSize pub.mTopic) := by
  rw [sendBufferBy_unguarded mPacketSize pub payload can.toUnguarded again buffer usable content,
    if_pos (Nat.not_le.mp long), pub.made.1, pub.made.2]

/-- The packets a message goes out in. -/
theorem sendBufferBy_carries : ∃ blocks : List Block,
    (∀ fuel buffer, pub.Usable buffer → buffer.data = payload →
      pub.sendBufferBy mPacketSize (pub.sendNested mPacketSize (fuel + 1)) buffer =
        .ok (blocks.map Block.bytes)) ∧
    (∀ block ∈ blocks, block.Alone mPacketSize) ∧
    Carries blocks ⟨pub.mTopic.mTopic.chars, payload⟩ := by
  have larger := can.larger
  by_cases fits : payload.length + pub.mHeaderSize ≤ mPacketSize.toNat
  · refine ⟨[block pub.mTopic 0 TportHeader.lastInPacket payload], ?_, ?_, ?_⟩
    · intro fuel buffer usable content
      exact pub.sendBufferBy_direct mPacketSize payload can fuel buffer usable content fits
    · intro block member
      rw [List.mem_singleton.mp member]
      refine ⟨block_sound _ _ _ _ can.named (by have := mPacketSize.toNat_lt; omega),
        block_lastInPacket _ _ _, ?_⟩
      rw [block_length, ← pub.made.2]
      omega
    · have whole := Carries.whole (block pub.mTopic 0 TportHeader.lastInPacket payload) rfl
      rwa [block_name, block_payload] at whole
  · have few := can.few
    rw [pub.made.2] at larger few fits
    have nonempty : payload ≠ [] := by
      rintro rfl
      exact fits (by rw [List.length_nil, Nat.zero_add]; exact larger)
    have room : headerSize pub.mTopic < mPacketSize.toNat := by
      have some_bytes := List.length_pos_of_ne_nil nonempty
      omega
    obtain ⟨blocks, ran, alone, fragments⟩ := fragment_carries pub.mTopic mPacketSize payload
      can.named room nonempty few
    refine ⟨blocks, ?_, alone, .pieces _ _ _ fragments⟩
    intro fuel buffer usable content
    rw [← pub.made.2] at fits
    rw [pub.sendBufferBy_long mPacketSize payload can _ buffer usable content fits, ran]

/-- `sbfPub_send` and `sbfPub_sendBuffer` put the same packets on the stream. -/
theorem send_carries : ∃ blocks : List Block,
    pub.send mPacketSize payload = .ok (blocks.map Block.bytes) ∧
    (∀ buffer, pub.Usable buffer → buffer.data = payload →
      pub.sendBuffer mPacketSize buffer = .ok (blocks.map Block.bytes)) ∧
    (∀ block ∈ blocks, block.Alone mPacketSize) ∧
    Carries blocks ⟨pub.mTopic.mTopic.chars, payload⟩ := by
  obtain ⟨blocks, sent, alone, carries⟩ := sendBufferBy_carries mPacketSize pub payload can
  exact ⟨blocks, sent 0 _ (pub.getBuffer_usable mPacketSize _ _) rfl, sent 1, alone, carries⟩

end Sends

/-- A send that comes back has sent the message or, where a guard held it back,
nothing. -/
theorem send_ok (payload : Bytes) (packets : List Bytes)
    (ran : pub.send mPacketSize payload = .ok packets)
    (named : pub.mTopic.mTopic.chars.length ≤ 249)
    (few : payload.length ≤ 255 * (mPacketSize.toNat - pub.mHeaderSize)) :
    packets = [] ∨ ∃ blocks : List Block, packets = blocks.map Block.bytes ∧
      (∀ block ∈ blocks, block.Alone mPacketSize) ∧
      Carries blocks ⟨pub.mTopic.mTopic.chars, payload⟩ := by
  by_cases guarded : payload.length > messageSizeLimit ∨ (pub.mDestroyed || !pub.mReady) = true
  · left
    have unshared := (pub.getBuffer_usable mPacketSize payload.length payload).unshared
    simp only [send, sendNested, sendBufferBy, unshared, ne_eq, not_true_eq_false, ↓reduceIte,
      write_data] at ran
    rcases guarded with long | held
    · rw [if_pos long] at ran
      cases ran
      rfl
    · rw [if_pos held] at ran
      split at ran <;> (cases ran; rfl)
  · right
    simp only [not_or, Bool.or_eq_true, Bool.not_eq_true', Bool.not_eq_true] at guarded
    obtain ⟨limited, alive, held⟩ := guarded
    have unguarded : pub.Unguarded payload := ⟨by simpa using held, alive, by omega⟩
    by_cases larger : pub.mHeaderSize ≤ mPacketSize.toNat
    · obtain ⟨blocks, sends, _, alone, carries⟩ := send_carries mPacketSize pub payload
        ⟨unguarded, named, larger, few⟩
      rw [sends] at ran
      cases ran
      exact ⟨blocks, rfl, alone, carries⟩
    · -- A header longer than a packet fails the assertion of `sbfTport_fragment`.
      have exceeds : payload.length + pub.mHeaderSize > mPacketSize.toNat := by omega
      rw [send, sendNested, sendBufferBy_unguarded mPacketSize pub payload unguarded _ _
        (pub.getBuffer_usable mPacketSize _ _) rfl, if_pos exceeds, Tport.fragment,
        if_pos (by omega)] at ran
      cases ran

end Pub

end Sbf
