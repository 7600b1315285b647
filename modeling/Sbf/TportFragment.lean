import Sbf.MessageBlocks
import Sbf.PubHeader

set_option autoImplicit false

namespace Sbf

open Octets

namespace Tport

/-- The loop of `sbfTport_fragment`, with the packets it hands to `mSendBuffer`. -/
def fragmentLoop (mPacketSize : UInt16) (hdr : HeaderBlock) (hdrSize : Nat) (data : Bytes) :
    Nat → Nat → UInt8 → Except Fault (List Bytes)
  | 0, _, _ => .error .endless
  | fuel + 1, offset, fragnum =>
      if offset < data.length then do
        let fragsize := min (mPacketSize.toNat - hdrSize) (data.length - offset)
        let fraghdr := { hdr.hdr with
          mSize := UInt16.ofNat fragsize
          mFlags := TportHeader.lastInPacket
          mFragNum := fragnum }
        let fraghdr :=
          if offset + fragsize = data.length then fraghdr.setFlag TportHeader.lastFragment
          else fraghdr
        let packet := Block.bytes ⟨⟨fraghdr, hdr.area⟩, (data.drop offset).take fragsize⟩
        let rest ← fragmentLoop mPacketSize hdr hdrSize data fuel (offset + fragsize) (fragnum + 1)
        return packet :: rest
      else .ok []

/-- `sbfTport_fragment`. With a packet size equal to the header size no fragment
would ever be longer than zero bytes. -/
def fragment (mPacketSize : UInt16) (data : Bytes) (hdr : HeaderBlock) (hdrSize : Nat) :
    Except Fault (List Bytes) :=
  if mPacketSize.toNat < hdrSize then .error .assertion
  else fragmentLoop mPacketSize hdr hdrSize data (data.length + 1) 0 1

end Tport

/-- A block that is a packet by itself. -/
structure Block.Alone (block : Block) (mPacketSize : UInt16) : Prop where
  sound : block.Sound
  last : block.hdr.isLastInPacket = true
  fits : block.bytes.length ≤ mPacketSize.toNat

/-- Packets of one block each are taken block by block. -/
theorem Handler.packets_alone (mPacketSize : UInt16) (blocks : List Block)
    (alone : ∀ block ∈ blocks, block.Alone mPacketSize) (base : List TportTopic) :
    Step.Simulates (Topics.Implements base) (Topics.Shows base)
      (Handler.packets (blocks.map Block.bytes)) (Receiver.takeAll blocks) := by
  have bytes : (blocks.map ([·])).map Handler.packetBytes = blocks.map Block.bytes := by
    rw [List.map_map]
    apply List.map_congr_left
    intro block _
    simp [Handler.packetBytes]
  have flat : (blocks.map ([·])).flatten = blocks := by
    rw [← List.flatMap_def]
    simp
  have run := Handler.packets_simulates base (blocks.map ([·]))
    (fun part member block inside => by
      obtain ⟨only, only_in, rfl⟩ := List.mem_map.mp member
      rw [List.mem_singleton.mp inside]
      exact (alone only only_in).sound)
    (fun part member => by
      obtain ⟨only, only_in, rfl⟩ := List.mem_map.mp member
      exact (alone only only_in).last)
  rwa [bytes, flat] at run

namespace Pub

/-- The number in a packet's header, zero when the packet is a whole message. -/
def packetFragNum (packet : Bytes) : Nat :=
  match TportHeader.decode packet with
  | some hdr => hdr.mFragNum.toNat
  | none => 0

theorem packetFragNum_bytes (block : Block) : packetFragNum block.bytes = block.fragNum := by
  simp only [packetFragNum, Block.bytes, HeaderBlock.bytes, List.append_assoc,
    TportHeader.decode_encode, Block.fragNum]

/-- The flags of a fragment. -/
def fragmentFlags (last : Prop) [Decidable last] : UInt8 :=
  if last then TportHeader.lastInPacket ||| TportHeader.lastFragment else TportHeader.lastInPacket

theorem fragmentFlags_isLastInPacket (topic : Topic) (fragNum : UInt8) (payload : Bytes)
    (last : Prop) [Decidable last] :
    (block topic fragNum (fragmentFlags last) payload).hdr.isLastInPacket = true := by
  simp only [block, TportHeader.isLastInPacket, fragmentFlags]
  split <;> decide

theorem fragmentFlags_isLastFragment (topic : Topic) (fragNum : UInt8) (payload : Bytes)
    (last : Prop) [Decidable last] :
    (block topic fragNum (fragmentFlags last) payload).hdr.isLastFragment = decide last := by
  simp only [block, TportHeader.isLastFragment, fragmentFlags]
  by_cases marked : last
  · simp only [marked, ↓reduceIte, decide_true]
    decide
  · simp only [marked, ↓reduceIte, decide_false]
    decide

/-- A fragment of the loop, as a block of its publisher. -/
theorem fragment_block (topic : Topic) (mPacketSize : UInt16) (fragNum : UInt8) (payload : Bytes)
    (last : Prop) [Decidable last] (named : topic.mTopic.chars.length ≤ 249)
    (fits : headerSize topic + payload.length ≤ mPacketSize.toNat) :
    (block topic fragNum (fragmentFlags last) payload).Alone mPacketSize where
  sound := block_sound _ _ _ _ named (by have := mPacketSize.toNat_lt; omega)
  last := fragmentFlags_isLastInPacket _ _ _ _
  fits := by rw [block_length]; exact fits

/-- One round of the loop. -/
theorem fragmentLoop_step (topic : Topic) (mPacketSize : UInt16) (data : Bytes) (fuel offset : Nat)
    (fragnum : UInt8) (inside : offset < data.length) :
    Tport.fragmentLoop mPacketSize (makeHeader topic) (headerSize topic) data (fuel + 1) offset
        fragnum =
      (Tport.fragmentLoop mPacketSize (makeHeader topic) (headerSize topic) data fuel
        (offset + min (mPacketSize.toNat - headerSize topic) (data.length - offset))
        (fragnum + 1)).map
      ((block topic fragnum
        (fragmentFlags (offset + min (mPacketSize.toNat - headerSize topic)
          (data.length - offset) = data.length))
        ((data.drop offset).take
          (min (mPacketSize.toNat - headerSize topic) (data.length - offset)))).bytes :: ·) := by
  have length : ((data.drop offset).take
      (min (mPacketSize.toNat - headerSize topic) (data.length - offset))).length =
      min (mPacketSize.toNat - headerSize topic) (data.length - offset) := by
    rw [List.length_take, List.length_drop]
    omega
  simp only [Tport.fragmentLoop, if_pos inside, block, length, fragmentFlags]
  split
  · cases Tport.fragmentLoop mPacketSize (makeHeader topic) (headerSize topic) data fuel
      (offset + min (mPacketSize.toNat - headerSize topic) (data.length - offset))
      (fragnum + 1) <;> rfl
  · cases Tport.fragmentLoop mPacketSize (makeHeader topic) (headerSize topic) data fuel
      (offset + min (mPacketSize.toNat - headerSize topic) (data.length - offset))
      (fragnum + 1) <;> rfl

/-- While at most 255 fragments are needed in all, the loop cuts what is left into
numbered packets and marks the last one. -/
theorem fragmentLoop_continues (topic : Topic) (mPacketSize : UInt16) (data : Bytes)
    (named : topic.mTopic.chars.length ≤ 249) (larger : headerSize topic < mPacketSize.toNat)
    (rounds fuel offset count : Nat) (inside : offset < data.length)
    (left : data.length - offset ≤ rounds * (mPacketSize.toNat - headerSize topic))
    (counted : count + rounds ≤ 255) (enough : data.length - offset < fuel) :
    ∃ blocks, Tport.fragmentLoop mPacketSize (makeHeader topic) (headerSize topic) data fuel offset
        (UInt8.ofNat (count + 1)) = .ok (blocks.map Block.bytes) ∧
      (∀ block ∈ blocks, block.Alone mPacketSize) ∧
      Continues topic.mTopic.chars count blocks (data.drop offset) := by
  induction rounds generalizing fuel offset count with
  | zero => omega
  | succ rounds ih =>
      obtain ⟨fuel, rfl⟩ : ∃ n, fuel = n + 1 := ⟨fuel - 1, by omega⟩
      rw [Nat.succ_mul] at left
      rw [fragmentLoop_step topic mPacketSize data fuel offset _ inside]
      generalize roomed : mPacketSize.toNat - headerSize topic = room at *
      have number : (UInt8.ofNat (count + 1)).toNat = count + 1 := by
        rw [UInt8.toNat_ofNat']
        omega
      by_cases ends : data.length - offset ≤ room
      · have whole : min room (data.length - offset) = data.length - offset :=
          Nat.min_eq_right ends
        have stop : offset + (data.length - offset) = data.length := by omega
        obtain ⟨fuel, rfl⟩ : ∃ n, fuel = n + 1 := ⟨fuel - 1, by omega⟩
        have payload : (data.drop offset).take (data.length - offset) = data.drop offset := by
          rw [← List.length_drop, List.take_length]
        rw [whole, stop, payload]
        refine ⟨[block topic (UInt8.ofNat (count + 1)) (fragmentFlags (data.length = data.length))
          (data.drop offset)], ?_, ?_, ?_⟩
        · simp only [Tport.fragmentLoop, Nat.lt_irrefl, ↓reduceIte, Except.map, List.map_cons,
            List.map_nil]
        · intro block member
          rw [List.mem_singleton.mp member]
          exact fragment_block _ _ _ _ _ named (by rw [List.length_drop]; omega)
        · exact .last count (block topic _ _ (data.drop offset)) (block_name _ _ _ _) number
            (by rw [fragmentFlags_isLastFragment, decide_eq_true rfl])
      · have whole : min room (data.length - offset) = room := Nat.min_eq_left (by omega)
        have more : offset + room ≠ data.length := by omega
        obtain ⟨blocks, ran, alone, later⟩ := ih fuel (offset + room) (count + 1) (by omega)
          (by omega) (by omega) (by omega)
        have next : UInt8.ofNat (count + 1) + 1 = UInt8.ofNat (count + 1 + 1) :=
          (UInt8.ofNat_add (count + 1) 1).symm
        rw [whole, next, ran]
        refine ⟨block topic (UInt8.ofNat (count + 1)) (fragmentFlags (offset + room = data.length))
          ((data.drop offset).take room) :: blocks, rfl, ?_, ?_⟩
        · intro block member
          rcases List.mem_cons.mp member with rfl | member
          · exact fragment_block _ _ _ _ _ named (by
              rw [List.length_take, List.length_drop]
              omega)
          · exact alone block member
        · have split : data.drop offset =
              (data.drop offset).take room ++ data.drop (offset + room) := by
            rw [← List.drop_drop, List.take_append_drop]
          have unmarked := fragmentFlags_isLastFragment topic (UInt8.ofNat (count + 1))
            ((data.drop offset).take room) (offset + room = data.length)
          rw [decide_eq_false more] at unmarked
          have fragments := Continues.more count _ blocks _ (block_name _ _ _ _) number unmarked later
          rwa [block_payload, ← split] at fragments

/-- `sbfTport_fragment` on a publisher's header. -/
theorem fragment_carries (topic : Topic) (mPacketSize : UInt16) (data : Bytes)
    (named : topic.mTopic.chars.length ≤ 249) (larger : headerSize topic < mPacketSize.toNat)
    (nonempty : data ≠ [])
    (few : data.length ≤ 255 * (mPacketSize.toNat - headerSize topic)) :
    ∃ blocks, Tport.fragment mPacketSize data (makeHeader topic) (headerSize topic) =
        .ok (blocks.map Block.bytes) ∧
      (∀ block ∈ blocks, block.Alone mPacketSize) ∧
      Continues topic.mTopic.chars 0 blocks data := by
  have started : ¬ mPacketSize.toNat < headerSize topic := by omega
  simp only [Tport.fragment, if_neg started]
  exact fragmentLoop_continues topic mPacketSize data named larger 255 (data.length + 1) 0 0
    (List.length_pos_of_ne_nil nonempty) (by omega) (by omega) (by omega)

end Pub

end Sbf
