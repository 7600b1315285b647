import Sbf.BatchItemMessages
import Sbf.RbTree

set_option autoImplicit false

namespace Sbf

open Octets

/-- `struct sbfBatchImpl`: an item for every stream that was added to. -/
structure Batch where
  mTree : RbTree StreamId BatchItem

/-- The packets of one stream. -/
def packetsOn (stream : StreamId) (packets : List (StreamId × Bytes)) : List Bytes :=
  (packets.filter (·.1 = stream)).map (·.2)

theorem packetsOn_append (stream : StreamId) (first second : List (StreamId × Bytes)) :
    packetsOn stream (first ++ second) = packetsOn stream first ++ packetsOn stream second := by
  simp only [packetsOn, List.filter_append, List.map_append]

theorem mem_packetsOn (packets : List (StreamId × Bytes)) (packet : StreamId × Bytes)
    (member : packet ∈ packets) : packet.2 ∈ packetsOn packet.1 packets :=
  List.mem_map.mpr ⟨packet, List.mem_filter.mpr ⟨member, by simp⟩, rfl⟩

namespace Batch

/-- `sbfBatch_create` -/
def create : Batch := ⟨.empty⟩

/-- The item of a stream, as good as new where there is none yet. -/
def item (batch : Batch) (stream : StreamId) : BatchItem :=
  (batch.mTree.find stream).getD .zero

/-- `sbfBatch_add` -/
def add (mPacketSize : UInt16) (pub : Pub) (data : Bytes) (batch : Batch) : Except Fault Batch :=
  if data.length > messageSizeLimit then .ok batch
  else if data.length = 0 || pub.mDestroyed || !pub.mReady then .ok batch
  else do
    let item ← (batch.item pub.mTportStream).add mPacketSize pub data
    return ⟨batch.mTree.set pub.mTportStream item⟩

/-- `sbfBatch_send`, with the packets it hands to the handler, stream by stream. -/
def send (batch : Batch) : Batch × List (StreamId × Bytes) :=
  (⟨batch.mTree.map (·.send.1)⟩,
    batch.mTree.entries.flatMap (fun entry => entry.2.send.2.map (entry.1, ·)))

/-- The calls on a batch. -/
inductive Call where
  | add (pub : Pub) (data : Bytes)
  | send

def step (mPacketSize : UInt16) : Call → Step Fault Batch (StreamId × Bytes)
  | .add pub data => fun batch => (batch.add mPacketSize pub data).map (·, [])
  | .send => fun batch => .ok batch.send

def run (mPacketSize : UInt16) (calls : List Call) : Step Fault Batch (StreamId × Bytes) :=
  Step.all (calls.map (step mPacketSize))

/-- The messages that calls add to one stream. -/
def messagesOn (stream : StreamId) (calls : List Call) : List Message :=
  calls.flatMap (fun call =>
    match call with
    | .add pub data =>
        if pub.mTportStream = stream then [⟨pub.mTopic.mTopic.chars, data⟩] else []
    | .send => [])

/-- The messages that are pending for each stream after some calls. -/
def pendingAfter (messages : StreamId → List Message) : List Call → StreamId → List Message
  | [] => messages
  | .add pub data :: rest =>
      pendingAfter (fun stream => messages stream ++ messagesOn stream [.add pub data]) rest
  | .send :: rest => pendingAfter (fun _ => []) rest

/-- A message that the batch takes in whole: the publisher can send, the payload is
not empty, and in the space that is left it needs at most 255 fragments. -/
structure CanAdd (mPacketSize : UInt16) (batch : Batch) (pub : Pub) (data : Bytes) : Prop
    extends pub.Unguarded data where
  nonempty : data ≠ []
  named : pub.mTopic.mTopic.chars.length ≤ 249
  larger : pub.mHeaderSize < mPacketSize.toNat
  few : data.length ≤
    ((batch.item pub.mTportStream).found mPacketSize pub.mHeaderSize - pub.mHeaderSize) +
      254 * (mPacketSize.toNat - pub.mHeaderSize)

/-- Calls whose messages the batch can take, each in the state it comes in. -/
def Allowed (mPacketSize : UInt16) : Batch → List Call → Prop
  | _, [] => True
  | batch, call :: rest =>
      (match call with
        | .add pub data => CanAdd mPacketSize batch pub data
        | .send => True) ∧
      ∀ next out, step mPacketSize call batch = .ok (next, out) → Allowed mPacketSize next rest

/-- The batch holds these messages for each stream. -/
structure Pending (mPacketSize : UInt16) (batch : Batch) (messages : StreamId → List Message) :
    Prop where
  steady : ∀ stream, (batch.item stream).Steady mPacketSize
  carries : ∀ stream, CarriesAll (batch.item stream).flat (messages stream)

theorem create_pending (mPacketSize : UInt16) : Pending mPacketSize create (fun _ => []) :=
  ⟨fun _ => .empty 0, fun _ => .nil⟩

/-- Packets of sound blocks that carry these messages. -/
def Packets (mPacketSize : UInt16) (packets : List Bytes) (messages : List Message) : Prop :=
  ∃ parts : List (List Block), packets = parts.map Handler.packetBytes ∧
    (∀ blocks ∈ parts, Handler.Closed blocks ∧ Handler.Packed mPacketSize blocks) ∧
    CarriesAll parts.flatten messages

theorem Packets.nil (mPacketSize : UInt16) : Packets mPacketSize [] [] :=
  ⟨[], rfl, List.forall_mem_nil _, .nil⟩

theorem Packets.append {mPacketSize : UInt16} {front back : List Bytes}
    {before after : List Message} (first : Packets mPacketSize front before)
    (second : Packets mPacketSize back after) :
    Packets mPacketSize (front ++ back) (before ++ after) := by
  obtain ⟨left, rfl, packed, carries⟩ := first
  obtain ⟨right, rfl, packed', carries'⟩ := second
  refine ⟨left ++ right, by rw [List.map_append], ?_, ?_⟩
  · intro blocks member
    exact (List.mem_append.mp member).elim (packed blocks) (packed' blocks)
  · rw [List.flatten_append]
    exact carries.append carries'

section Steps

variable (mPacketSize : UInt16) (batch : Batch) (messages : StreamId → List Message)
  (pending : Pending mPacketSize batch messages)
include pending

/-- An add changes the item of its stream only. -/
theorem add_pending (pub : Pub) (data : Bytes) (can : CanAdd mPacketSize batch pub data) :
    ∃ next, step mPacketSize (.add pub data) batch = .ok (next, []) ∧
      Pending mPacketSize next
        (fun stream => messages stream ++ messagesOn stream [.add pub data]) := by
  obtain ⟨after, ran, steady, carries⟩ := BatchItem.add_carries mPacketSize pub can.named
    can.larger data can.nonempty _ (pending.steady pub.mTportStream) can.few _
    (pending.carries pub.mTportStream)
  have small : ¬ data.length > messageSizeLimit := Nat.not_lt.mpr can.limited
  have some_bytes : ¬ data.length = 0 := fun none_left =>
    can.nonempty (List.eq_nil_of_length_eq_zero none_left)
  have here : ∀ stream, Batch.item ⟨batch.mTree.set pub.mTportStream after⟩ stream =
      if stream = pub.mTportStream then after else batch.item stream := by
    intro stream
    simp only [item, RbTree.find_set]
    split <;> rfl
  refine ⟨⟨batch.mTree.set pub.mTportStream after⟩, ?_, ?_, ?_⟩
  · simp only [step, add, if_neg small, some_bytes, decide_false, can.alive, can.ready, Bool.not_true,
      Bool.or_self, Bool.false_eq_true, ↓reduceIte, ran, bind, Except.bind, pure, Except.pure,
      Except.map]
  · intro stream
    rw [here]
    split
    · exact steady
    · exact pending.steady stream
  · intro stream
    rw [here]
    by_cases same : stream = pub.mTportStream
    · simpa [messagesOn, same] using carries
    · simpa [messagesOn, same, Ne.symm same] using pending.carries stream

/-- A send hands out what every item holds. -/
theorem send_pending :
    Pending mPacketSize batch.send.1 (fun _ => []) ∧
      ∀ stream, Packets mPacketSize (packetsOn stream batch.send.2) (messages stream) := by
  have emptied : ∀ stream, ∃ count, batch.send.1.item stream = ⟨[], none, none, count⟩ := by
    intro stream
    simp only [send, item, RbTree.find_map]
    cases batch.mTree.find stream <;> exact ⟨0, rfl⟩
  refine ⟨⟨?_, ?_⟩, ?_⟩
  · intro stream
    obtain ⟨count, shape⟩ := emptied stream
    rw [shape]
    exact .empty count
  · intro stream
    obtain ⟨count, shape⟩ := emptied stream
    rw [shape]
    exact .nil
  · intro stream
    have handed : packetsOn stream batch.send.2 = (batch.item stream).send.2 := by
      refine (RbTree.traversal_at batch.mTree (fun item => item.send.2) stream).trans ?_
      rw [item]
      cases batch.mTree.find stream <;> rfl
    obtain ⟨parts, sent, packed, carries⟩ := BatchItem.send_packets mPacketSize
      (batch.item stream) (pending.steady stream) (messages stream) (pending.carries stream)
    exact ⟨parts, by rw [handed, sent], packed, carries⟩

end Steps

end Batch

end Sbf
