import Sbf.HandlerPacket

set_option autoImplicit false

namespace Sbf

open Octets

namespace Block

/-- The header describes what is behind it, and the topic area ends in zero. -/
structure Sound (block : Block) : Prop where
  sized : block.payload.length = block.hdr.mSize.toNat
  spanned : block.area.length = block.hdr.mTopicSize.toNat
  ended : block.area.getLast? = some 0

/-- The number of a fragment, zero when the block is a whole message. -/
def fragNum (block : Block) : Nat := block.hdr.mFragNum.toNat

/-- The topic name at the front of the topic area. -/
def name (block : Block) : Bytes := block.area.takeWhile (· ≠ 0)

theorem Sound.terminated {block : Block} (sound : block.Sound) : 0 ∈ block.area :=
  List.mem_of_getLast? sound.ended

theorem Sound.used {block : Block} (sound : block.Sound) :
    Handler.used block.hdr = block.bytes.length := by
  rw [Block.bytes_length, Handler.used, sound.sized, sound.spanned]

end Block

namespace Handler

/-- The receive path without the bytes: what one block does to the nodes. -/
def accept (block : Block) : Receive := fun topics =>
  match listening topics block.name with
  | none => .ok (topics, [])
  | some ttopic => message ttopic block.hdr block.payload topics

/-- A packet's blocks: only the last one is marked as such. -/
def Closed : List Block → Prop
  | [] => False
  | [block] => block.hdr.isLastInPacket = true
  | block :: rest => block.hdr.isLastInPacket = false ∧ Closed rest

/-- The bytes of a packet. -/
def packetBytes (blocks : List Block) : Bytes := (blocks.map Block.bytes).flatten

@[simp] theorem packetBytes_cons (block : Block) (rest : List Block) :
    packetBytes (block :: rest) = block.bytes ++ packetBytes rest := rfl

theorem packetBytes_concat_length (front : List Block) (block : Block) :
    (packetBytes (front ++ [block])).length =
      (packetBytes front).length + block.bytes.length := by
  simp [packetBytes]

section At

variable (front back : Bytes) (block : Block)

theorem header_at : header (front ++ (block.bytes ++ back)) front.length = .ok block.hdr := by
  simp only [header, List.drop_left, Block.bytes, HeaderBlock.bytes, List.append_assoc,
    TportHeader.decode_encode, inside]

variable (sound : block.Sound)
include sound

theorem checkHeader_at (available : Nat) (enough : block.bytes.length ≤ available) :
    checkHeader (front ++ (block.bytes ++ back)) front.length available = .ok true := by
  have long : ¬ available < TportHeader.size := by
    rw [Block.bytes_length] at enough
    omega
  have fits : ¬ available < used block.hdr := by
    rw [sound.used]
    omega
  have nonempty : 0 < block.area.length := List.length_pos_of_mem sound.terminated
  have last : (front ++ (block.bytes ++ back))[front.length + TportHeader.size +
      block.hdr.mTopicSize.toNat - 1]? = some 0 := by
    rw [← sound.spanned]
    have split : front ++ (block.bytes ++ back) =
        (front ++ block.hdr.encode) ++ (block.area ++ (block.payload ++ back)) := by
      simp only [Block.bytes, HeaderBlock.bytes, List.append_assoc]
    have length : (front ++ block.hdr.encode).length = front.length + TportHeader.size := by
      rw [List.length_append, TportHeader.encode_length]
    rw [split, ← length, List.getElem?_append_right (by omega),
      List.getElem?_append_left (by omega)]
    rw [← sound.ended, List.getLast?_eq_getElem?]
    congr 1
    omega
  simp only [checkHeader, if_neg long, header_at, last, inside, bind, Except.bind, if_neg fits,
    pure, Except.pure, beq_self_eq_true]

theorem findTopic_at (topics : List TportTopic) :
    findTopic topics (front ++ (block.bytes ++ back)) front.length =
      .ok (listening topics block.name) := by
  cases topics with
  | nil => rfl
  | cons node rest =>
      have split : front ++ (block.bytes ++ back) =
          (front ++ block.hdr.encode) ++ (block.area ++ (block.payload ++ back)) := by
        simp only [Block.bytes, HeaderBlock.bytes, List.append_assoc]
      have length : (front ++ block.hdr.encode).length = front.length + TportHeader.size := by
        rw [List.length_append, TportHeader.encode_length]
      have read := cstring_inside (front ++ block.hdr.encode) block.area (block.payload ++ back)
        sound.terminated
      rw [← split, length] at read
      simp only [findTopic, read, inside, bind, Except.bind, pure, Except.pure, Block.name]

theorem messageAt_at :
    messageAt (front ++ (block.bytes ++ back)) front.length block.hdr = accept block := by
  have payload : slice (front ++ (block.bytes ++ back))
      (front.length + TportHeader.size + block.hdr.mTopicSize.toNat) block.hdr.mSize.toNat =
        some block.payload := by
    have split : front ++ (block.bytes ++ back) =
        (front ++ block.hdr.encode ++ block.area) ++ (block.payload ++ back) := by
      simp only [Block.bytes, HeaderBlock.bytes, List.append_assoc]
    have length : (front ++ block.hdr.encode ++ block.area).length =
        front.length + TportHeader.size + block.hdr.mTopicSize.toNat := by
      simp only [List.length_append, TportHeader.encode_length, sound.spanned]
    rw [split, ← length, ← sound.sized]
    exact slice_middle _ _ _
  funext topics
  simp only [messageAt, findTopic_at front back block sound, payload, inside, bind, Except.bind,
    accept]
  cases listening topics block.name <;> rfl

end At

/-- The message loop over sound blocks up to the one marked as last. -/
theorem loop_blocks (blocks : List Block) (sound : ∀ block ∈ blocks, block.Sound)
    (closed : Closed blocks) (front : Bytes) (fuel : Nat) (enough : blocks.length ≤ fuel) :
    loop fuel (front ++ packetBytes blocks) front.length (packetBytes blocks).length =
      Step.all (blocks.map accept) := by
  induction blocks generalizing front fuel with
  | nil => cases closed
  | cons block rest ih =>
      obtain ⟨fuel, rfl⟩ : ∃ n, fuel = n + 1 := ⟨fuel - 1, by simp at enough; omega⟩
      have here := sound block (by simp)
      have checked := checkHeader_at front (packetBytes rest) block here
        (packetBytes (block :: rest)).length (by simp)
      have unfolded : loop (fuel + 1) (front ++ packetBytes (block :: rest)) front.length
          (packetBytes (block :: rest)).length =
          if block.hdr.isLastInPacket then accept block
          else (accept block).andThen (loop fuel (front ++ packetBytes (block :: rest))
            (front.length + used block.hdr)
            ((packetBytes (block :: rest)).length - used block.hdr)) := by
        funext topics
        simp only [packetBytes_cons] at checked ⊢
        simp only [loop, checked, header_at, messageAt_at front _ block here, bind, Except.bind,
          Bool.not_true, Bool.false_eq_true, ↓reduceIte]
        split <;> rfl
      rw [unfolded, List.map_cons, Step.all_cons]
      cases rest with
      | nil =>
          have last : block.hdr.isLastInPacket = true := closed
          simp only [last, ↓reduceIte, List.map_nil, Step.all_nil, Step.andThen_skip]
      | cons second rest =>
          have more : block.hdr.isLastInPacket = false := closed.1
          have length : (packetBytes (block :: second :: rest)).length - used block.hdr =
              (packetBytes (second :: rest)).length := by
            rw [here.used, packetBytes_cons, List.length_append]
            omega
          have run := ih (fun other member => sound other (by simp [member])) closed.2
            (front ++ block.bytes) fuel (by simp at enough ⊢; omega)
          rw [List.append_assoc, ← packetBytes_cons, List.length_append, ← here.used] at run
          simp only [more, Bool.false_eq_true, ↓reduceIte, length, run]

theorem length_le_packetBytes (blocks : List Block) :
    blocks.length ≤ (packetBytes blocks).length := by
  induction blocks with
  | nil => simp
  | cons block rest ih =>
      rw [packetBytes_cons, List.length_append, Block.bytes_length, TportHeader.size,
        List.length_cons]
      omega

/-- `sbfHandler_packet` on a packet of sound blocks: both paths come to taking
the blocks one after the other. -/
theorem packet_blocks (blocks : List Block) (sound : ∀ block ∈ blocks, block.Sound)
    (closed : Closed blocks) : packet (packetBytes blocks) = Step.all (blocks.map accept) := by
  cases blocks with
  | nil => cases closed
  | cons block rest =>
      have first := header_at [] (packetBytes rest) block
      have run := loop_blocks (block :: rest) sound closed []
        ((packetBytes (block :: rest)).length + 1)
        (Nat.le_succ_of_le (length_le_packetBytes (block :: rest)))
      simp only [List.nil_append, List.length_nil, ← packetBytes_cons] at first run
      rw [packet_eq_loop _ block.hdr first, run]

/-- A stream of packets is the sequence of all their blocks. -/
theorem packets_blocks (parts : List (List Block))
    (sound : ∀ blocks ∈ parts, ∀ block ∈ blocks, block.Sound)
    (closed : ∀ blocks ∈ parts, Closed blocks) :
    packets (parts.map packetBytes) = Step.all (parts.flatten.map accept) := by
  rw [packets, List.map_flatten, Step.all_flatten, List.map_map, List.map_map]
  congr 1
  apply List.map_congr_left
  intro blocks member
  exact packet_blocks blocks (sound blocks member) (closed blocks member)

end Handler

end Sbf
