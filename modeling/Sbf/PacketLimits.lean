import Sbf.PubRoundTrip

set_option autoImplicit false

/-! The limits that fragmentation rests on: the packet sizes that a transport lets
through, the padded headers, the message size and the eight-bit fragment number. -/

namespace Sbf

open Octets

namespace Tport

/-- `sizeof (sbfTportHeader)`: the type is the pointer, not the header behind it. -/
def headerPointerSize : Nat := 8

/-- `sbfTportTryHandler` on a table that is loaded; `mCreate` is whether the handler
could be created. -/
def tryHandler (mPacketSize : UInt16) (mCreate : Bool) : Bool :=
  if mPacketSize.toNat ≤ headerPointerSize + topicSizeLimit then false else mCreate

theorem tryHandler_size {mPacketSize : UInt16} {mCreate : Bool}
    (accepted : tryHandler mPacketSize mCreate = true) : 263 < mPacketSize.toNat := by
  unfold tryHandler at accepted
  split at accepted
  · cases accepted
  · rename_i large
    exact Nat.not_le.mp large

end Tport

namespace Pub

/-- No header is longer than what the transport asks of a packet. -/
theorem headerSize_le (topic : Topic) : headerSize topic ≤ 264 := by
  have within := topic.within
  simp only [headerSize, topicSize, TportHeader.size, topicSizeLimit] at within ⊢
  omega

/-- The packets of a message in fragments: none too long, each with its own size in
the header, numbered from one on, and together the message. -/
structure Fragments (mPacketSize : UInt16) (topic : Topic) (data : Bytes)
    (packets : List Bytes) : Prop where
  small : ∀ packet ∈ packets, packet.length ≤ mPacketSize.toNat
  sized : ∀ packet ∈ packets, ∃ hdr, TportHeader.decode packet = some hdr ∧
    headerSize topic + hdr.mSize.toNat = packet.length
  numbered : packets.map packetFragNum = List.range' 1 packets.length
  whole : packets.flatMap (·.drop (headerSize topic)) = data

/-- What the loop makes of the rest of a message, for a topic of any length and in any
number of packets: the numbers are taken modulo 256. -/
structure Cuts (mPacketSize : UInt16) (topic : Topic) (left : Bytes) (count : Nat)
    (packets : List Bytes) : Prop where
  small : ∀ packet ∈ packets, packet.length ≤ mPacketSize.toNat
  sized : ∀ packet ∈ packets, ∃ hdr, TportHeader.decode packet = some hdr ∧
    headerSize topic + hdr.mSize.toNat = packet.length
  numbered : packets.map packetFragNum = (List.range' (count + 1) packets.length).map (· % 256)
  whole : packets.flatMap (·.drop (headerSize topic)) = left
  few : ∀ k, packets.length ≤ k ↔ left.length ≤ k * (mPacketSize.toNat - headerSize topic)

theorem Cuts.nil (mPacketSize : UInt16) (topic : Topic) (count : Nat) :
    Cuts mPacketSize topic [] count [] where
  small := List.forall_mem_nil _
  sized := List.forall_mem_nil _
  numbered := rfl
  whole := rfl
  few k := by simp

theorem block_decode (topic : Topic) (fragNum flags : UInt8) (payload : Bytes) :
    TportHeader.decode (block topic fragNum flags payload).bytes =
      some (block topic fragNum flags payload).hdr := by
  rw [Block.bytes, HeaderBlock.bytes, List.append_assoc, TportHeader.decode_encode]

theorem block_drop (topic : Topic) (fragNum flags : UInt8) (payload : Bytes) :
    (block topic fragNum flags payload).bytes.drop (headerSize topic) = payload := by
  have length : (block topic fragNum flags payload).toHeaderBlock.bytes.length =
      headerSize topic := makeHeader_bytes_length topic
  rw [Block.bytes, ← length, List.drop_left, block_payload]

section Loop

variable {mPacketSize : UInt16} {topic : Topic} (larger : headerSize topic < mPacketSize.toNat)
include larger

/-- One packet more in front. -/
theorem Cuts.cons {left : Bytes} {count : Nat} {packets : List Bytes} (flags : UInt8)
    (some_left : left ≠ [])
    (later : Cuts mPacketSize topic (left.drop (mPacketSize.toNat - headerSize topic)) (count + 1)
      packets) :
    Cuts mPacketSize topic left count ((block topic (UInt8.ofNat (count + 1)) flags
      (left.take (mPacketSize.toNat - headerSize topic))).bytes :: packets) where
  small := by
    refine List.forall_mem_cons.mpr ⟨?_, later.small⟩
    rw [block_length, List.length_take]
    omega
  sized := by
    refine List.forall_mem_cons.mpr ⟨⟨_, block_decode _ _ _ _, ?_⟩, later.sized⟩
    have bound := mPacketSize.toNat_lt
    rw [block_length]
    simp only [block, UInt16.toNat_ofNat', List.length_take]
    omega
  numbered := by
    rw [List.map_cons, later.numbered, packetFragNum_bytes, List.length_cons, List.range'_succ,
      List.map_cons]
    simp only [Block.fragNum, block, UInt8.toNat_ofNat']
  whole := by rw [List.flatMap_cons, later.whole, block_drop, List.take_append_drop]
  few k := by
    have positive := List.length_pos_of_ne_nil some_left
    cases k with
    | zero =>
        rw [List.length_cons]
        omega
    | succ k =>
        have behind := later.few k
        rw [List.length_drop] at behind
        rw [List.length_cons, Nat.succ_mul]
        omega

/-- With room behind the header the loop comes to its end. -/
theorem fragmentLoop_cuts (data : Bytes) (fuel offset count : Nat)
    (enough : data.length - offset < fuel) :
    ∃ packets, Tport.fragmentLoop mPacketSize (makeHeader topic) (headerSize topic) data fuel offset
        (UInt8.ofNat (count + 1)) = .ok packets ∧
      Cuts mPacketSize topic (data.drop offset) count packets := by
  induction fuel generalizing offset count with
  | zero => omega
  | succ fuel ih =>
      by_cases inside : offset < data.length
      · have some_left : data.drop offset ≠ [] := by
          intro none_left
          have length := congrArg List.length none_left
          rw [List.length_drop, List.length_nil] at length
          omega
        obtain ⟨packets, ran, later⟩ := ih
          (offset + min (mPacketSize.toNat - headerSize topic) (data.length - offset)) (count + 1)
          (by omega)
        have payload : (data.drop offset).take (min (mPacketSize.toNat - headerSize topic)
            (data.length - offset)) =
              (data.drop offset).take (mPacketSize.toNat - headerSize topic) := by
          rw [Nat.min_comm, ← List.take_take, ← List.length_drop]
          exact List.take_of_length_le (by rw [List.length_take]; omega)
        have behind : data.drop (offset + min (mPacketSize.toNat - headerSize topic)
            (data.length - offset)) =
              (data.drop offset).drop (mPacketSize.toNat - headerSize topic) := by
          rw [← List.drop_drop]
          by_cases ends : data.length - offset ≤ mPacketSize.toNat - headerSize topic
          · rw [List.drop_eq_nil_of_le (by rw [List.length_drop]; omega),
              List.drop_eq_nil_of_le (by rw [List.length_drop]; omega)]
          · rw [Nat.min_eq_left (by omega)]
        have next : UInt8.ofNat (count + 1) + 1 = UInt8.ofNat (count + 1 + 1) :=
          (UInt8.ofNat_add (count + 1) 1).symm
        rw [behind] at later
        rw [fragmentLoop_step topic mPacketSize data fuel offset _ inside, next, ran, payload]
        exact ⟨_, rfl, later.cons larger _ some_left⟩
      · refine ⟨[], by simp only [Tport.fragmentLoop, if_neg inside], ?_⟩
        rw [List.drop_eq_nil_of_le (by omega)]
        exact .nil _ _ _

end Loop

/-- Without room behind the header every fragment is empty and the loop never ends. -/
theorem fragmentLoop_endless (mPacketSize : UInt16) (topic : Topic)
    (full : mPacketSize.toNat = headerSize topic) (data : Bytes) (fuel offset : Nat)
    (fragnum : UInt8) (inside : offset < data.length) :
    Tport.fragmentLoop mPacketSize (makeHeader topic) (headerSize topic) data fuel offset fragnum =
      .error .endless := by
  induction fuel generalizing fragnum with
  | zero => rfl
  | succ fuel ih =>
      rw [fragmentLoop_step topic mPacketSize data fuel offset fragnum inside, full, Nat.sub_self,
        Nat.zero_min, Nat.add_zero, ih]
      rfl

theorem range_wraps {count : Nat}
    (same : (List.range' 1 count).map (· % 256) = List.range' 1 count) : count ≤ 255 := by
  by_contra many
  have at_end := congrArg (·[255]?) same
  simp only [List.getElem?_map, List.getElem?_range' (show 255 < count by omega),
    Option.map_some] at at_end
  exact absurd at_end (by decide)

theorem range_exact {count : Nat} (few : count ≤ 255) :
    (List.range' 1 count).map (· % 256) = List.range' 1 count := by
  rw [List.map_congr_left (g := id), List.map_id]
  intro number member
  have bounds := List.mem_range'_1.mp member
  exact Nat.mod_eq_of_lt (by omega)

/-- A message is cut into numbered packets exactly when 255 of them hold it, which
takes some room behind the header. -/
theorem fragment_works_iff (mPacketSize : UInt16) (mCreate : Bool)
    (accepted : Tport.tryHandler mPacketSize mCreate = true) (topic : Topic) (data : Bytes)
    (long : mPacketSize.toNat < headerSize topic + data.length) :
    (∃ packets, Tport.fragment mPacketSize data (makeHeader topic) (headerSize topic) =
        .ok packets ∧ Fragments mPacketSize topic data packets) ↔
      data.length ≤ 255 * (mPacketSize.toNat - headerSize topic) := by
  have sized := Tport.tryHandler_size accepted
  have header := headerSize_le topic
  have started : ¬ mPacketSize.toNat < headerSize topic := by omega
  simp only [Tport.fragment, if_neg started]
  by_cases full : mPacketSize.toNat = headerSize topic
  · rw [fragmentLoop_endless mPacketSize topic full data _ 0 1 (by omega), full, Nat.sub_self]
    constructor
    · rintro ⟨packets, ran, _⟩
      cases ran
    · omega
  · have larger : headerSize topic < mPacketSize.toNat := by omega
    obtain ⟨packets, ran, cuts⟩ := fragmentLoop_cuts larger data (data.length + 1) 0 0 (by omega)
    have number : UInt8.ofNat (0 + 1) = 1 := rfl
    rw [number] at ran
    rw [List.drop_zero] at cuts
    rw [ran, ← cuts.few 255]
    constructor
    · rintro ⟨_, ⟨⟩, fragments⟩
      exact range_wraps (cuts.numbered.symm.trans fragments.numbered)
    · intro few
      exact ⟨packets, rfl, cuts.small, cuts.sized, cuts.numbered.trans (range_exact few), cuts.whole⟩

/-- In packets of 264 bytes the ticker has room for 248 in each. -/
theorem fragment_works_tick : ∃ packets,
    Tport.fragment 264 (List.replicate 300 7) (makeHeader tick) (headerSize tick) = .ok packets ∧
      Fragments 264 tick (List.replicate 300 7) packets := by
  have length : (List.replicate 300 (7 : UInt8)).length = 300 := List.length_replicate
  have header : headerSize tick = 16 := rfl
  refine (fragment_works_iff 264 true rfl tick (List.replicate 300 7) ?_).mpr ?_
  · rw [length, header]
    decide
  · rw [length, header]
    decide

/-- With the smallest packets that a transport lets through and the longest topic the
header fills the packet, and one byte is never sent. -/
theorem fragment_never_ends : ∃ topic, Topic.create .pub (letters 253) = some topic ∧
    Tport.tryHandler 264 true = true ∧ (264 : UInt16).toNat < headerSize topic + [0].length ∧
      (∀ fuel, Tport.fragmentLoop 264 (makeHeader topic) (headerSize topic) [0] fuel 0 1 =
        .error .endless) ∧
      ¬ ∃ packets, Tport.fragment 264 [0] (makeHeader topic) (headerSize topic) = .ok packets ∧
        Fragments 264 topic [0] packets := by
  obtain ⟨topic, made, length⟩ := create_letters .pub 253 (by decide)
  have header : headerSize topic = 264 := by rw [headerSize, topicSize, length]; rfl
  have endless : ∀ fuel, Tport.fragmentLoop 264 (makeHeader topic) (headerSize topic) [0] fuel 0 1 =
      .error .endless := fun fuel =>
    fragmentLoop_endless 264 topic header.symm [0] fuel 0 1 (by decide)
  refine ⟨topic, made, rfl, by rw [header]; decide, endless, ?_⟩
  rintro ⟨packets, ran, _⟩
  rw [Tport.fragment, if_neg (by rw [header]; decide), endless] at ran
  cases ran

end Pub

end Sbf
