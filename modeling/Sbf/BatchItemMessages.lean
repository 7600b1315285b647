import Sbf.BatchItem

set_option autoImplicit false

namespace Sbf

open Octets

/-- Blocks that are sound and fit into one packet together. -/
structure Handler.Packed (mPacketSize : UInt16) (blocks : List Block) : Prop where
  sound : ∀ block ∈ blocks, block.Sound
  fits : (Handler.packetBytes blocks).length ≤ mPacketSize.toNat

theorem Handler.closed_concat (front : List Block) (block : Block)
    (unflagged : ∀ other ∈ front, other.hdr.isLastInPacket = false)
    (flagged : block.hdr.isLastInPacket = true) : Handler.Closed (front ++ [block]) := by
  induction front with
  | nil => exact flagged
  | cons other front ih =>
      have later := ih (fun another member => unflagged another (by simp [member]))
      obtain ⟨second, rest, shape⟩ : ∃ second rest, front ++ [block] = second :: rest :=
        List.exists_cons_of_ne_nil (by simp)
      rw [shape] at later
      rw [List.cons_append, shape]
      exact ⟨unflagged other (by simp), later⟩

namespace BatchItem

open Handler

/-- All blocks of an item in the order of its buffers. -/
def flat (item : BatchItem) : List Block := (item.mBuffers ++ item.mCurrent.toList).flatten

/-- An item with a current buffer: the buffers in front are finished packets, and
no block of the current one is flagged as the last yet. -/
structure Ready (mPacketSize : UInt16) (item : BatchItem) (blocks : List Block) : Prop where
  current : item.mCurrent = some blocks
  filled : ∀ buffer ∈ item.mBuffers, Closed buffer ∧ Packed mPacketSize buffer
  packed : Packed mPacketSize blocks
  unflagged : ∀ block ∈ blocks, block.hdr.isLastInPacket = false

/-- An item between two calls: empty, or with `mLast` at the end of the current
buffer. -/
inductive Steady (mPacketSize : UInt16) : BatchItem → Prop
  | empty (messages : Nat) : Steady mPacketSize ⟨[], none, none, messages⟩
  | filling (item : BatchItem) (front : List Block) (block : Block)
      (ready : Ready mPacketSize item (front ++ [block]))
      (last : item.mLast = some front.length) : Steady mPacketSize item

theorem mapHdr_lastInPacket_content (block : Block) :
    (block.mapHdr (·.setFlag TportHeader.lastInPacket)).content = block.content := by
  simp only [Block.content, Block.mapHdr, TportHeader.setFlag_lastInPacket_isLastFragment]
  rfl

theorem mapHdr_lastInPacket_sound (block : Block) (sound : block.Sound) :
    (block.mapHdr (·.setFlag TportHeader.lastInPacket)).Sound :=
  ⟨sound.sized, sound.spanned, sound.ended⟩

theorem modify_concat (front : List Block) (block : Block) (f : Block → Block) :
    (front ++ [block]).modify front.length f = front ++ [f block] := by
  induction front with
  | nil => rfl
  | cons other front ih => rw [List.cons_append, List.length_cons, List.modify_succ_cons, ih]; rfl

/-- Flagging the last block finishes the current buffer as a packet. -/
theorem flagged_packet (mPacketSize : UInt16) (front : List Block) (block : Block)
    (packed : Packed mPacketSize (front ++ [block]))
    (unflagged : ∀ other ∈ front ++ [block], other.hdr.isLastInPacket = false) :
    Closed (front ++ [block.mapHdr (·.setFlag TportHeader.lastInPacket)]) ∧
      Packed mPacketSize (front ++ [block.mapHdr (·.setFlag TportHeader.lastInPacket)]) := by
  refine ⟨closed_concat front _ (fun other member => unflagged other (by simp [member]))
    (TportHeader.setFlag_lastInPacket block.hdr), ?_, ?_⟩
  · intro other member
    rcases List.mem_append.mp member with inside | here
    · exact packed.sound other (by simp [inside])
    · rw [List.mem_singleton.mp here]
      exact mapHdr_lastInPacket_sound block (packed.sound block (by simp))
  · have fits := packed.fits
    rw [packetBytes_concat_length, Block.bytes_length] at fits ⊢
    exact fits

theorem setLast_concat (f : TportHeader → TportHeader) (item : BatchItem) (front : List Block)
    (block : Block) (current : item.mCurrent = some (front ++ [block]))
    (last : item.mLast = some front.length) :
    item.setLast f = { item with mCurrent := some (front ++ [block.mapHdr f]) } := by
  simp only [setLast, last, current, Option.map_some, modify_concat]

/-- Within a packet the subtraction of sizes does not wrap. -/
theorem sizeSub_eq (left right : Nat) (ordered : right ≤ left) :
    sizeSub left right = left - right := if_pos ordered

theorem left_ready (mPacketSize : UInt16) (item : BatchItem) (blocks : List Block)
    (ready : Ready mPacketSize item blocks) :
    item.left mPacketSize = mPacketSize.toNat - (packetBytes blocks).length := by
  simp only [left, ready.current]
  exact sizeSub_eq _ _ ready.packed.fits

/-- The space a message finds: the rest of the current buffer when its header and
some payload fit there, and a new buffer otherwise. -/
def found (mPacketSize : UInt16) (headerSize : Nat) (item : BatchItem) : Nat :=
  if item.left mPacketSize ≤ headerSize then mPacketSize.toNat else item.left mPacketSize

theorem left_fresh (mPacketSize : UInt16) (buffers : List (List Block)) (messages : Nat) :
    left mPacketSize ⟨buffers, some [], none, messages⟩ = mPacketSize.toNat :=
  sizeSub_eq _ 0 (Nat.zero_le _)

theorem ready_fresh (mPacketSize : UInt16) (buffers : List (List Block)) (messages : Nat)
    (filled : ∀ buffer ∈ buffers, Closed buffer ∧ Packed mPacketSize buffer) :
    Ready mPacketSize ⟨buffers, some [], none, messages⟩ [] :=
  ⟨rfl, filled, ⟨List.forall_mem_nil _, Nat.zero_le _⟩, List.forall_mem_nil _⟩

/-- After `sbfBatchNextBuffer` there is room behind the header, and the blocks that
were in the item are still there. -/
theorem nextBuffer_ready (mPacketSize : UInt16) (pub : Pub) (item : BatchItem)
    (steady : Steady mPacketSize item) (larger : pub.mHeaderSize < mPacketSize.toNat) :
    ∃ next blocks, nextBuffer mPacketSize pub item =
        .ok (next, item.found mPacketSize pub.mHeaderSize) ∧
      Ready mPacketSize next blocks ∧
      item.found mPacketSize pub.mHeaderSize =
        mPacketSize.toNat - (packetBytes blocks).length ∧
      pub.mHeaderSize < item.found mPacketSize pub.mHeaderSize ∧
      next.flat.map Block.content = item.flat.map Block.content := by
  cases steady with
  | empty messages =>
      have full : BatchItem.left mPacketSize ⟨[], none, none, messages⟩ ≤ pub.mHeaderSize :=
        Nat.zero_le _
      have space : found mPacketSize pub.mHeaderSize ⟨[], none, none, messages⟩ =
          mPacketSize.toNat := if_pos full
      refine ⟨⟨[], some [], none, messages⟩, [], ?_,
        ready_fresh mPacketSize [] messages (List.forall_mem_nil _), space, ?_, rfl⟩
      · rw [nextBuffer, if_pos full, if_neg (by simp), space, ← left_fresh mPacketSize [] messages]
        rfl
      · rw [space]
        exact larger
  | filling item front block ready last =>
      by_cases full : item.left mPacketSize ≤ pub.mHeaderSize
      · have space : item.found mPacketSize pub.mHeaderSize = mPacketSize.toNat := if_pos full
        have flagged := setLast_concat (·.setFlag TportHeader.lastInPacket) item front block
          ready.current last
        have packet := flagged_packet mPacketSize front block ready.packed ready.unflagged
        refine ⟨⟨item.mBuffers ++ [front ++ [block.mapHdr (·.setFlag TportHeader.lastInPacket)]],
          some [], none, item.mMessages⟩, [], ?_, ready_fresh mPacketSize _ _ ?_, space, ?_, ?_⟩
        · rw [nextBuffer, if_pos full, if_neg (by simp [last]), flagged, space]
          exact congrArg Except.ok (congrArg (Prod.mk _) (left_fresh mPacketSize _ _))
        · intro buffer member
          rcases List.mem_append.mp member with inside | here
          · exact ready.filled buffer inside
          · rw [List.mem_singleton.mp here]
            exact packet
        · rw [space]
          exact larger
        · simp only [flat, ready.current, Option.toList_some, List.flatten_append,
            List.flatten_cons, List.flatten_nil, List.append_nil, List.map_append, List.map_cons,
            List.map_nil, mapHdr_lastInPacket_content]
      · have space : item.found mPacketSize pub.mHeaderSize = item.left mPacketSize := if_neg full
        refine ⟨item, front ++ [block], ?_, ready, ?_, ?_, rfl⟩
        · rw [nextBuffer, if_neg full, space]
        · rw [space]
          exact left_ready mPacketSize item (front ++ [block]) ready
        · rw [space]
          omega

/-- A block behind the others of the current buffer, with `mLast` pointing to it. -/
def push (item : BatchItem) (blocks : List Block) (block : Block) : BatchItem :=
  { item with mCurrent := some (blocks ++ [block]), mLast := some blocks.length }

theorem push_setLast (f : TportHeader → TportHeader) (item : BatchItem) (blocks : List Block)
    (block : Block) : (item.push blocks block).setLast f = item.push blocks (block.mapHdr f) :=
  setLast_concat f _ blocks block rfl rfl

theorem push_flat (mPacketSize : UInt16) (item : BatchItem) (blocks : List Block)
    (ready : Ready mPacketSize item blocks) (block : Block) :
    (item.push blocks block).flat = item.flat ++ [block] := by
  simp only [flat, push, ready.current, Option.toList_some, List.flatten_append,
    List.flatten_cons, List.flatten_nil, List.append_nil, List.append_assoc]

theorem push_ready (mPacketSize : UInt16) (item : BatchItem) (blocks : List Block)
    (ready : Ready mPacketSize item blocks) (block : Block) (sound : block.Sound)
    (unflagged : block.hdr.isLastInPacket = false)
    (fits : (packetBytes blocks).length + block.bytes.length ≤ mPacketSize.toNat) :
    Ready mPacketSize (item.push blocks block) (blocks ++ [block]) where
  current := rfl
  filled := ready.filled
  packed := by
    refine ⟨?_, by rw [packetBytes_concat_length]; exact fits⟩
    intro other member
    rcases List.mem_append.mp member with inside | here
    · exact ready.packed.sound other inside
    · rw [List.mem_singleton.mp here]
      exact sound
  unflagged := by
    intro other member
    rcases List.mem_append.mp member with inside | here
    · exact ready.unflagged other inside
    · rw [List.mem_singleton.mp here]
      exact unflagged

theorem updateBuffer_push (mPacketSize : UInt16) (pub : Pub) (data : Bytes) (item : BatchItem)
    (blocks : List Block) (ready : Ready mPacketSize item blocks)
    (fits : (packetBytes blocks).length + pub.mHeaderSize + data.length ≤ mPacketSize.toNat) :
    updateBuffer mPacketSize pub data item =
      .ok (item.push blocks (Pub.block pub.mTopic 0 0 data)) := by
  have inside : ¬ (packetBytes blocks).length + pub.mHeaderSize + data.length >
      mPacketSize.toNat := by omega
  simp only [updateBuffer, ready.current, if_neg inside, pub.made.1]
  rfl

section Add

variable (mPacketSize : UInt16) (pub : Pub)

/-- One fragment goes behind what is in the current buffer. -/
theorem addLoop_step (fuel : Nat) (data : Bytes) (number : UInt8) (item : BatchItem)
    (blocks : List Block) (ready : Ready mPacketSize item blocks) (left : Nat)
    (space : left = mPacketSize.toNat - (packetBytes blocks).length)
    (room : pub.mHeaderSize < left) :
    addLoop mPacketSize pub (fuel + 1) data number item left =
      if data.drop (left - pub.mHeaderSize) ≠ [] then do
        let next ← nextBuffer mPacketSize pub
          (item.push blocks (Pub.block pub.mTopic number 0 (data.take (left - pub.mHeaderSize))))
        addLoop mPacketSize pub fuel (data.drop (left - pub.mHeaderSize)) (number + 1) next.1 next.2
      else .ok (item.push blocks (Pub.block pub.mTopic number
        (if number ≠ 0 then TportHeader.lastFragment else 0) data)) := by
  have difference : sizeSub left pub.mHeaderSize = left - pub.mHeaderSize :=
    sizeSub_eq _ _ (by omega)
  have taken : data.take (min data.length (left - pub.mHeaderSize)) =
      data.take (left - pub.mHeaderSize) := by
    rw [Nat.min_comm, ← List.take_take, List.take_length]
  have dropped : data.drop (min data.length (left - pub.mHeaderSize)) =
      data.drop (left - pub.mHeaderSize) := by
    rcases Nat.le_total data.length (left - pub.mHeaderSize) with short | long
    · rw [Nat.min_eq_left short, List.drop_length, List.drop_eq_nil_of_le short]
    · rw [Nat.min_eq_right long]
  have pushed := updateBuffer_push mPacketSize pub (data.take (left - pub.mHeaderSize)) item blocks
    ready (by rw [List.length_take]; omega)
  have numbered : (Pub.block pub.mTopic 0 0 (data.take (left - pub.mHeaderSize))).mapHdr
      (fun hdr => { hdr with mFragNum := number }) =
      Pub.block pub.mTopic number 0 (data.take (left - pub.mHeaderSize)) := rfl
  rw [addLoop]
  simp only [difference, taken, dropped, pushed, bind, Except.bind, push_setLast, numbered, pure,
    Except.pure]
  by_cases more : data.drop (left - pub.mHeaderSize) ≠ []
  · rw [if_pos more, if_pos more]
  · have all : data.take (left - pub.mHeaderSize) = data := by
      rw [List.take_of_length_le]
      simpa using more
    rw [if_neg more, if_neg more, all]
    by_cases zero : number = 0
    · subst zero
      rfl
    · have marked : (Pub.block pub.mTopic number 0 data).mapHdr (fun hdr =>
          if hdr.mFragNum ≠ 0 then hdr.setFlag TportHeader.lastFragment else hdr) =
          Pub.block pub.mTopic number TportHeader.lastFragment data := by
        simp only [Block.mapHdr, Pub.block, ne_eq, zero, not_false_eq_true, ↓reduceIte,
          TportHeader.setFlag, UInt8.zero_or]
      rw [marked, if_pos zero]

theorem block_unflagged (topic : Topic) (number : UInt8) (payload : Bytes) :
    (Pub.block topic number 0 payload).hdr.isLastInPacket = false := by
  simp only [Pub.block, TportHeader.isLastInPacket]
  decide

theorem block_unmarked (topic : Topic) (number : UInt8) (payload : Bytes) :
    (Pub.block topic number 0 payload).hdr.isLastFragment = false := by
  simp only [Pub.block, TportHeader.isLastFragment]
  decide

theorem block_lastFragment (topic : Topic) (number : UInt8) (payload : Bytes) :
    (Pub.block topic number TportHeader.lastFragment payload).hdr.isLastInPacket = false ∧
      (Pub.block topic number TportHeader.lastFragment payload).hdr.isLastFragment = true := by
  simp only [Pub.block, TportHeader.isLastInPacket, TportHeader.isLastFragment]
  decide

variable (named : pub.mTopic.mTopic.chars.length ≤ 249)
include named

/-- A block of the publisher behind the blocks of the current buffer. -/
theorem push_block (item : BatchItem) (blocks : List Block)
    (ready : Ready mPacketSize item blocks) (number flags : UInt8) (payload : Bytes)
    (unflagged : (Pub.block pub.mTopic number flags payload).hdr.isLastInPacket = false)
    (fits : (packetBytes blocks).length + pub.mHeaderSize + payload.length ≤ mPacketSize.toNat) :
    Steady mPacketSize (item.push blocks (Pub.block pub.mTopic number flags payload)) := by
  have small := mPacketSize.toNat_lt
  refine .filling _ blocks _ (push_ready mPacketSize item blocks ready _ ?_ unflagged ?_) rfl
  · exact Pub.block_sound _ _ _ _ named (by omega)
  · rw [Pub.block_length, ← pub.made.2]
    omega

/-- What still fits into the current buffer is the last fragment. -/
theorem addLoop_last (fuel count left : Nat) (data : Bytes) (item : BatchItem)
    (blocks : List Block) (ready : Ready mPacketSize item blocks)
    (space : left = mPacketSize.toNat - (packetBytes blocks).length)
    (room : pub.mHeaderSize < left) (ends : data.length ≤ left - pub.mHeaderSize)
    (counted : count + 1 ≤ 255) :
    ∃ after added, addLoop mPacketSize pub (fuel + 1) data (UInt8.ofNat (count + 1)) item left =
        .ok after ∧
      Steady mPacketSize after ∧ Continues pub.mTopic.mTopic.chars count added data ∧
      after.flat.map Block.content = (item.flat ++ added).map Block.content := by
  have number : (UInt8.ofNat (count + 1)).toNat = count + 1 := by
    rw [UInt8.toNat_ofNat']
    omega
  have positive : UInt8.ofNat (count + 1) ≠ 0 := by
    intro zero
    rw [zero] at number
    simp at number
  have whole : ¬ data.drop (left - pub.mHeaderSize) ≠ [] := by
    simpa only [ne_eq, List.drop_eq_nil_iff, not_not] using ends
  have flags := block_lastFragment pub.mTopic (UInt8.ofNat (count + 1)) data
  refine ⟨_, _, ?_, push_block mPacketSize pub named item blocks ready (UInt8.ofNat (count + 1))
    TportHeader.lastFragment data flags.1 (by omega),
    .last count _ (Pub.block_name pub.mTopic _ _ _) number flags.2, ?_⟩
  · rw [addLoop_step mPacketSize pub fuel data _ item blocks ready left space room, if_neg whole,
      if_pos positive]
  · rw [push_flat mPacketSize item blocks ready]
    rfl

/-- The loop puts the rest of a message behind what is there, in numbered
fragments, the last one marked. -/
theorem addLoop_continues (larger : pub.mHeaderSize < mPacketSize.toNat)
    (rounds fuel count left : Nat) (data : Bytes) (nonempty : data ≠ [])
    (item : BatchItem) (blocks : List Block) (ready : Ready mPacketSize item blocks)
    (space : left = mPacketSize.toNat - (packetBytes blocks).length)
    (room : pub.mHeaderSize < left)
    (few : data.length ≤ (left - pub.mHeaderSize) +
      rounds * (mPacketSize.toNat - pub.mHeaderSize))
    (counted : count + 1 + rounds ≤ 255) (enough : data.length < fuel) :
    ∃ after added, addLoop mPacketSize pub fuel data (UInt8.ofNat (count + 1)) item left =
        .ok after ∧
      Steady mPacketSize after ∧ Continues pub.mTopic.mTopic.chars count added data ∧
      after.flat.map Block.content = (item.flat ++ added).map Block.content := by
  induction rounds generalizing fuel count left data item blocks with
  | zero =>
      obtain ⟨fuel, rfl⟩ : ∃ n, fuel = n + 1 := ⟨fuel - 1, by omega⟩
      exact addLoop_last mPacketSize pub named fuel count left data item blocks ready space room
        (by omega) (by omega)
  | succ rounds ih =>
      obtain ⟨fuel, rfl⟩ : ∃ n, fuel = n + 1 := ⟨fuel - 1, by omega⟩
      have number : (UInt8.ofNat (count + 1)).toNat = count + 1 := by
        rw [UInt8.toNat_ofNat']
        omega
      by_cases ends : data.length ≤ left - pub.mHeaderSize
      · exact addLoop_last mPacketSize pub named fuel count left data item blocks ready space
          room ends (by omega)
      · have more : data.drop (left - pub.mHeaderSize) ≠ [] := by
          simp only [ne_eq, List.drop_eq_nil_iff]
          omega
        have length : (data.take (left - pub.mHeaderSize)).length = left - pub.mHeaderSize := by
          rw [List.length_take]
          omega
        -- The fragment fills the buffer to its end, so the next one starts in a new one.
        have filled := ready.packed.fits
        have steady := push_block mPacketSize pub named item blocks ready
          (UInt8.ofNat (count + 1)) 0 (data.take (left - pub.mHeaderSize))
          (block_unflagged _ _ _) (by omega)
        generalize pushed : item.push blocks (Pub.block pub.mTopic (UInt8.ofNat (count + 1)) 0
          (data.take (left - pub.mHeaderSize))) = next at steady
        have spent : next.found mPacketSize pub.mHeaderSize = mPacketSize.toNat := by
          have nothing : next.left mPacketSize = 0 := by
            rw [← pushed]
            simp only [BatchItem.left, push]
            rw [packetBytes_concat_length, Pub.block_length, length, ← pub.made.2,
              sizeSub_eq _ _ (by omega)]
            omega
          exact if_pos (by rw [nothing]; exact Nat.zero_le _)
        obtain ⟨fresh, others, opened, ready', space', room', kept⟩ :=
          nextBuffer_ready mPacketSize pub next steady larger
        rw [spent] at opened space' room'
        obtain ⟨after, added, ran, steady', fragments, contents⟩ := ih fuel (count + 1)
          mPacketSize.toNat (data.drop (left - pub.mHeaderSize)) more fresh others ready' space'
          room' (by rw [List.length_drop]; rw [Nat.succ_mul] at few; omega) (by omega)
          (by rw [List.length_drop]; omega)
        have following : UInt8.ofNat (count + 1) + 1 = UInt8.ofNat (count + 1 + 1) :=
          (UInt8.ofNat_add (count + 1) 1).symm
        refine ⟨after, Pub.block pub.mTopic (UInt8.ofNat (count + 1)) 0
          (data.take (left - pub.mHeaderSize)) :: added, ?_, steady', ?_, ?_⟩
        · rw [addLoop_step mPacketSize pub fuel data _ item blocks ready left space room,
            if_pos more, pushed, opened, following]
          exact ran
        · have joined := Continues.more count _ added _ (Pub.block_name pub.mTopic
            (UInt8.ofNat (count + 1)) 0 (data.take (left - pub.mHeaderSize))) number
            (block_unmarked _ _ _) fragments
          rwa [Pub.block_payload, List.take_append_drop] at joined
        · rw [contents, List.map_append, kept, ← pushed, push_flat mPacketSize item blocks ready,
            List.map_append, List.map_append, List.append_assoc]
          rfl

/-- `sbfBatch_add` puts its message behind the ones that are there. -/
theorem add_carries (larger : pub.mHeaderSize < mPacketSize.toNat) (data : Bytes)
    (nonempty : data ≠ []) (item : BatchItem) (steady : Steady mPacketSize item)
    (few : data.length ≤ (item.found mPacketSize pub.mHeaderSize - pub.mHeaderSize) +
      254 * (mPacketSize.toNat - pub.mHeaderSize))
    (messages : List Message) (carries : CarriesAll item.flat messages) :
    ∃ after, add mPacketSize pub data item = .ok after ∧ Steady mPacketSize after ∧
      CarriesAll after.flat (messages ++ [⟨pub.mTopic.mTopic.chars, data⟩]) := by
  have counted : Steady mPacketSize { item with mMessages := item.mMessages + 1 } := by
    cases steady with
    | empty count => exact .empty (count + 1)
    | filling item front block ready last =>
        exact .filling _ front block ⟨ready.current, ready.filled, ready.packed, ready.unflagged⟩
          last
  have same : BatchItem.found mPacketSize pub.mHeaderSize
      { item with mMessages := item.mMessages + 1 } =
      item.found mPacketSize pub.mHeaderSize := rfl
  obtain ⟨next, blocks, opened, ready, space, room, kept⟩ :=
    nextBuffer_ready mPacketSize pub _ counted larger
  rw [same] at opened space room
  have front : CarriesAll next.flat messages := carries.congr next.flat kept
  by_cases whole : item.found mPacketSize pub.mHeaderSize > pub.mHeaderSize + data.length
  · have flags := block_unflagged pub.mTopic 0 data
    refine ⟨_, ?_, push_block mPacketSize pub named next blocks ready 0 0 data flags (by omega), ?_⟩
    · simp only [add, opened, bind, Except.bind, if_pos whole]
      exact updateBuffer_push mPacketSize pub data next blocks ready (by omega)
    · rw [push_flat mPacketSize next blocks ready]
      have one := Carries.whole (Pub.block pub.mTopic 0 0 data) rfl
      rw [Pub.block_name, Pub.block_payload] at one
      exact front.append (.of_carries one)
  · obtain ⟨after, added, ran, steady', fragments, contents⟩ :=
      addLoop_continues mPacketSize pub named larger 254 (data.length + 1) 0 _ data nonempty next
        blocks ready space room few (by omega) (by omega)
    refine ⟨after, ?_, steady', ?_⟩
    · simp only [add, opened, bind, Except.bind, if_neg whole]
      exact ran
    · exact (front.append (.of_carries (.pieces _ _ _ fragments))).congr after.flat contents

end Add

/-- `sbfBatch_send` hands out sound packets with the messages of the item, and
leaves it empty. -/
theorem send_packets (mPacketSize : UInt16) (item : BatchItem) (steady : Steady mPacketSize item)
    (messages : List Message) (carries : CarriesAll item.flat messages) :
    ∃ parts : List (List Block), item.send = (zero, parts.map packetBytes) ∧
      (∀ blocks ∈ parts, Closed blocks ∧ Packed mPacketSize blocks) ∧
      CarriesAll parts.flatten messages := by
  cases steady with
  | empty count => exact ⟨[], rfl, List.forall_mem_nil _, carries⟩
  | filling item front block ready last =>
      have flagged := setLast_concat (·.setFlag TportHeader.lastInPacket) item front block
        ready.current last
      refine ⟨item.mBuffers ++ [front ++ [block.mapHdr (·.setFlag TportHeader.lastInPacket)]],
        ?_, ?_, ?_⟩
      · simp only [send, flagged, Option.toList_some]
        rfl
      · intro buffer member
        rcases List.mem_append.mp member with inside | here
        · exact ready.filled buffer inside
        · rw [List.mem_singleton.mp here]
          exact flagged_packet mPacketSize front block ready.packed ready.unflagged
      · refine carries.congr _ ?_
        simp only [flat, ready.current, Option.toList_some, List.flatten_append, List.flatten_cons,
          List.flatten_nil, List.append_nil, List.map_append, List.map_cons, List.map_nil,
          mapHdr_lastInPacket_content]

end BatchItem

end Sbf
