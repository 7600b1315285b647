import Sbf.PubSend

set_option autoImplicit false

namespace Sbf.Pub

open Octets Topics

/-- A stream whose node for a publisher's topic is ready to receive. -/
structure Awaits (topics : List TportTopic) (topic : Topic) (ttopic : TportTopic) : Prop where
  sound : Sound topics
  member : ttopic ∈ topics
  named : ttopic.mTopic = topic.mTopic
  subscribed : ttopic.mSubs ≠ []
  idle : ttopic.frag.Idle

theorem Awaits.found {topics : List TportTopic} {topic : Topic} {ttopic : TportTopic}
    (awaits : Awaits topics topic ttopic) : find topics topic.mTopic.chars = some ttopic := by
  rw [← awaits.named]
  exact find_of_mem awaits.sound.names awaits.member

theorem Awaits.receiver_eq {topics : List TportTopic} {topic : Topic} {ttopic : TportTopic}
    (awaits : Awaits topics topic ttopic) :
    receiver topics topic.mTopic.chars = some ttopic.frag := by
  have subscribed := awaits.subscribed
  simp [receiver, Handler.listening, awaits.found, subscribed]

theorem Awaits.subscribers_eq {topics : List TportTopic} {topic : Topic} {ttopic : TportTopic}
    (awaits : Awaits topics topic ttopic) :
    subscribers topics topic.mTopic.chars = ttopic.mSubs := by
  simp only [subscribers, awaits.found]

/-- A message comes through: the packets of `sbfPub_send` and `sbfPub_sendBuffer`
give every subscription of the topic exactly one buffer with the payload and the
others nothing, and leave no partial message behind. -/
theorem send_delivers (mPacketSize : UInt16) (pub : Pub) (payload : Bytes)
    (can : pub.CanSend mPacketSize payload) (topics : List TportTopic) (ttopic : TportTopic)
    (awaits : Awaits topics pub.mTopic ttopic) :
    ∃ packets, pub.send mPacketSize payload = .ok packets ∧
      (∀ buffer, pub.Usable buffer → buffer.data = payload →
        pub.sendBuffer mPacketSize buffer = .ok packets) ∧
      (∀ packet ∈ packets, packet.length ≤ mPacketSize.toNat) ∧
      ∃ topics' sent, Handler.packets packets topics = .ok (topics', sent) ∧
        (∀ (subs : SubId → Sub) (sub : SubId), deliveries subs sub sent =
          if sub ∈ ttopic.mSubs then ((subs sub).message payload).toList else []) ∧
        ∃ ttopic', find topics' pub.mTopic.mTopic.chars = some ttopic' ∧
          ttopic'.mSubs = ttopic.mSubs ∧ ttopic'.frag.Idle := by
  obtain ⟨blocks, sent, sentBuffer, alone, carries⟩ := pub.send_carries mPacketSize payload can
  have view := awaits.receiver_eq
  obtain ⟨after, ran, empty, _⟩ := Receiver.takeAll_carries carries
    (fun block member => (alone block member).sound) (receiver topics)
    (fun frag lookup => by
      rw [view] at lookup
      cases lookup
      exact awaits.idle)
  obtain ⟨topics', out, delivered, implements, shows⟩ :=
    Handler.packets_alone mPacketSize blocks alone topics topics (receiver topics)
      (Implements.refl awaits.sound)
  rw [ran] at implements shows
  refine ⟨blocks.map Block.bytes, sent, sentBuffer, ?_, topics', out, delivered, ?_, ?_⟩
  · intro packet member
    obtain ⟨block, inside, rfl⟩ := List.mem_map.mp member
    exact (alone block inside).fits
  · intro subs sub
    rw [deliveries_shows awaits.sound subs sub shows]
    simp [Receiver.wanted, view, expected, awaits.subscribers_eq]
  · have listens := Receiver.takeAll_isSome blocks (receiver topics) pub.mTopic.mTopic.chars
    rw [ran, view] at listens
    obtain ⟨frag, lookup⟩ := Option.isSome_iff_exists.mp listens
    obtain ⟨ttopic', found, same, subs⟩ := Handler.Implements.lookup implements lookup
    refine ⟨ttopic', found, ?_, same ▸ empty frag lookup⟩
    rw [subs, awaits.subscribers_eq]

theorem tick_plain : 0 ∉ ([47, 47, 116] : Bytes) ∧ 0 ∉ ([116] : Bytes) := by decide

/-- The topic `t`, whose header takes 16 bytes. -/
def tick : Topic :=
  ⟨.pub, ⟨[47, 47, 116], tick_plain.1⟩, .empty, .empty, ⟨[116], tick_plain.2⟩, rfl, by decide⟩

/-- A ready publisher of that topic. -/
def ticker : Pub := ⟨0, 0, tick, false, true, makeHeader tick, headerSize tick, rfl, rfl⟩

/-- A packet of the ticker's: a fragment with four or fewer bytes. -/
def tickPacket (fragNum : UInt8) (last : Bool) (payload : Bytes) : Bytes :=
  (block tick fragNum (fragmentFlags (last = true)) payload).bytes

/-- A node of that topic with two subscriptions and nothing received. -/
def tickNode : TportTopic := ⟨0, tick.mTopic, [], [1, 2], none, .zero⟩

theorem tickNode_awaits : Awaits [tickNode] tick tickNode where
  sound := Sound.singleton tickNode ⟨by decide, fun _ pointer => by cases pointer⟩
  member := by simp
  named := rfl
  subscribed := by decide
  idle := Reassembly.zero_idle

/-- Six bytes in packets of twenty: two fragments. -/
theorem send_delivers_ticker : ∃ packets, ticker.send 20 [1, 2, 3, 4, 5, 6] = .ok packets ∧
    ∃ topics' sent, Handler.packets packets [tickNode] = .ok (topics', sent) ∧
      deliveries (fun _ => ⟨false, true, true⟩) 2 sent = [.called [1, 2, 3, 4, 5, 6]] := by
  obtain ⟨packets, sends, _, _, topics', sent, delivered, each, _⟩ :=
    send_delivers 20 ticker [1, 2, 3, 4, 5, 6]
      ⟨⟨rfl, rfl, by decide⟩, by decide, by decide, by decide⟩ [tickNode] tickNode tickNode_awaits
  exact ⟨packets, sends, topics', sent, delivered, (each _ 2).trans rfl⟩

end Sbf.Pub
