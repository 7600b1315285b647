import Sbf.Batch
import Sbf.PubRoundTrip

set_option autoImplicit false

namespace Sbf.Batch

open Octets Topics

theorem messagesOn_cons (stream : StreamId) (call : Call) (rest : List Call) :
    messagesOn stream (call :: rest) = messagesOn stream [call] ++ messagesOn stream rest := by
  simp only [messagesOn, List.flatMap_cons, List.flatMap_nil, List.append_nil]

/-- One call: what it sends and what it leaves pending are together what was pending
before and what it adds. -/
theorem step_pending (mPacketSize : UInt16) (call : Call) (batch : Batch)
    (messages : StreamId → List Message) (pending : Pending mPacketSize batch messages)
    (allowed : Allowed mPacketSize batch [call]) :
    ∃ next out, step mPacketSize call batch = .ok (next, out) ∧
      Pending mPacketSize next (pendingAfter messages [call]) ∧ ∀ stream, ∃ sent,
        Packets mPacketSize (packetsOn stream out) sent ∧
        sent ++ pendingAfter messages [call] stream =
          messages stream ++ messagesOn stream [call] := by
  cases call with
  | add pub data =>
      obtain ⟨next, ran, later⟩ := add_pending mPacketSize batch messages pending pub data allowed.1
      exact ⟨next, [], ran, later, fun stream => ⟨[], .nil mPacketSize, rfl⟩⟩
  | send =>
      obtain ⟨later, packets⟩ := send_pending mPacketSize batch messages pending
      exact ⟨batch.send.1, batch.send.2, rfl, later,
        fun stream => ⟨messages stream, packets stream, rfl⟩⟩

/-- The same over any sequence of calls. -/
theorem run_pending (mPacketSize : UInt16) (calls : List Call) (batch : Batch)
    (messages : StreamId → List Message) (pending : Pending mPacketSize batch messages)
    (allowed : Allowed mPacketSize batch calls) :
    ∃ next out, run mPacketSize calls batch = .ok (next, out) ∧
      Pending mPacketSize next (pendingAfter messages calls) ∧ ∀ stream, ∃ sent,
        Packets mPacketSize (packetsOn stream out) sent ∧
        sent ++ pendingAfter messages calls stream =
          messages stream ++ messagesOn stream calls := by
  induction calls generalizing batch messages with
  | nil =>
      exact ⟨batch, [], rfl, pending, fun stream => ⟨[], .nil mPacketSize, by
        rw [List.nil_append]
        exact (List.append_nil _).symm⟩⟩
  | cons call rest ih =>
      obtain ⟨middle, out, ran, held, first⟩ := step_pending mPacketSize call batch messages pending
        ⟨allowed.1, fun _ _ _ => trivial⟩
      obtain ⟨next, more, ran', held', later⟩ :=
        ih middle (pendingAfter messages [call]) held (allowed.2 middle out ran)
      have split : pendingAfter messages (call :: rest) =
          pendingAfter (pendingAfter messages [call]) rest := by
        cases call <;> rfl
      refine ⟨next, out ++ more, Step.andThen_ok_ok ran ran', by rw [split]; exact held', ?_⟩
      intro stream
      obtain ⟨sent, packets, shared⟩ := first stream
      obtain ⟨sent', packets', shared'⟩ := later stream
      refine ⟨sent ++ sent', by rw [packetsOn_append]; exact packets.append packets', ?_⟩
      rw [split, List.append_assoc, shared', ← List.append_assoc, shared, List.append_assoc,
        ← messagesOn_cons]

/-- Batching preserves messages: after any calls that end in a send, the packets of
each stream deliver the messages added for it, in their order and once each. -/
theorem run_delivers (mPacketSize : UInt16) (calls : List Call)
    (allowed : Allowed mPacketSize create calls) :
    ∃ batch packets, run mPacketSize (calls ++ [.send]) create = .ok (batch, packets) ∧
      (∀ packet ∈ packets, packet.2.length ≤ mPacketSize.toNat) ∧
      ∀ (stream : StreamId) (topics : List TportTopic), Sound topics →
        (∀ ttopic ∈ topics, ttopic.frag.Idle) →
        ∃ topics' sent, Handler.packets (packetsOn stream packets) topics = .ok (topics', sent) ∧
          List.Forall₂ (Shows topics) sent
            ((receiver topics).wanted (messagesOn stream calls)) ∧
          ∀ (subs : SubId → Sub) (sub : SubId),
            deliveries subs sub sent = expected topics subs sub (messagesOn stream calls) := by
  obtain ⟨middle, out, ran, held, first⟩ := run_pending mPacketSize calls create _
    (create_pending mPacketSize) allowed
  obtain ⟨_, last⟩ := send_pending mPacketSize middle _ held
  have whole : run mPacketSize (calls ++ [.send]) create =
      .ok (middle.send.1, out ++ middle.send.2) := by
    have sending : Step.all ([Call.send].map (step mPacketSize)) middle = .ok middle.send := by
      rw [List.map_cons, List.map_nil, Step.all_cons, Step.all_nil, Step.andThen_skip]
      rfl
    simp only [run, List.map_append, Step.all_append]
    exact Step.andThen_ok_ok ran sending
  have on_stream : ∀ stream, Packets mPacketSize (packetsOn stream (out ++ middle.send.2))
      (messagesOn stream calls) := by
    intro stream
    obtain ⟨sent, packets, split⟩ := first stream
    rw [packetsOn_append, ← List.nil_append (messagesOn stream calls), ← split]
    exact packets.append (last stream)
  refine ⟨middle.send.1, out ++ middle.send.2, whole, ?_, ?_⟩
  · intro packet member
    obtain ⟨parts, bytes, packed, _⟩ := on_stream packet.1
    have inside := mem_packetsOn _ packet member
    rw [bytes] at inside
    obtain ⟨blocks, part, same⟩ := List.mem_map.mp inside
    rw [← same]
    exact (packed blocks part).2.fits
  · intro stream topics sound idle
    obtain ⟨parts, bytes, packed, carries⟩ := on_stream stream
    have soundBlocks : ∀ blocks ∈ parts, ∀ block ∈ blocks, block.Sound := fun blocks part =>
      (packed blocks part).2.sound
    have idleReceiver : (receiver topics).Idle := by
      intro name frag view
      obtain ⟨ttopic, found, same, _⟩ := Handler.Implements.lookup (Implements.refl sound) view
      rw [← same]
      exact idle ttopic (find_mem found).1
    obtain ⟨after, taken, _⟩ := Receiver.takeAll_carriesAll carries
      (fun block member => by
        obtain ⟨blocks, part, inside⟩ := List.mem_flatten.mp member
        exact soundBlocks blocks part block inside)
      (receiver topics) idleReceiver
    obtain ⟨topics', sent, delivered, _, shows⟩ := Handler.packets_simulates topics parts soundBlocks
      (fun blocks part => (packed blocks part).1) topics (receiver topics) (Implements.refl sound)
    rw [taken] at shows
    rw [bytes]
    refine ⟨topics', sent, delivered, shows, ?_⟩
    intro subs sub
    rw [deliveries_shows sound subs sub shows, expected_wanted]

/-- The second message starts in the packet of the first. -/
def tickCalls : List Call :=
  [.add Pub.ticker [1], .add Pub.ticker [2, 3, 4, 5, 6, 7, 8, 9, 10, 11]]

theorem tickCalls_allowed : Allowed 40 create tickCalls := by
  refine ⟨⟨⟨rfl, rfl, by decide⟩, by decide, by decide, by decide, by decide⟩, ?_⟩
  intro next out ran
  cases ran
  refine ⟨⟨⟨rfl, rfl, by decide⟩, by decide, by decide, by decide, by decide⟩, ?_⟩
  exact fun _ _ _ => trivial

theorem run_delivers_tickCalls : ∃ batch packets,
    run 40 (tickCalls ++ [.send]) create = .ok (batch, packets) ∧
      ∃ topics' sent, Handler.packets (packetsOn 0 packets) [Pub.tickNode] =
          .ok (topics', sent) ∧
        deliveries (fun _ => ⟨false, true, true⟩) 2 sent =
          [.called [1], .called [2, 3, 4, 5, 6, 7, 8, 9, 10, 11]] := by
  obtain ⟨batch, packets, ran, _, delivers⟩ := run_delivers 40 tickCalls tickCalls_allowed
  obtain ⟨topics', sent, delivered, _, each⟩ := delivers 0 [Pub.tickNode] Pub.tickNode_awaits.sound
    (by
      intro ttopic member
      rw [List.mem_singleton.mp member]
      exact Reassembly.zero_idle)
  exact ⟨batch, packets, ran, topics', sent, delivered, (each _ 2).trans rfl⟩

end Sbf.Batch
