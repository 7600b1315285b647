import Mathlib.Data.List.Chain
import Mathlib.Tactic.Choose
import Sbf.PubRoundTrip

set_option autoImplicit false

namespace Sbf

open Octets

/-- A fragment of a message with what is in front of it and behind it. -/
theorem Continues.split {name : Bytes} {count : Nat} {blocks : List Block} {left : Bytes}
    (fragments : Continues name count blocks left) (block : Block) (member : block ∈ blocks) :
    ∃ front back, blocks = front ++ block :: back ∧
      block.hdr.mFragNum.toNat = count + front.length + 1 ∧
      (block.hdr.isLastFragment = true → left = front.flatMap (·.payload) ++ block.payload) := by
  induction fragments with
  | last count only named number marked =>
      rw [List.mem_singleton.mp member]
      exact ⟨[], [], rfl, number, fun _ => rfl⟩
  | more count first rest left named number unmarked later ih =>
      rcases List.mem_cons.mp member with rfl | inside
      · refine ⟨[], rest, rfl, number, fun marked => ?_⟩
        rw [unmarked] at marked
        cases marked
      · obtain ⟨front, back, shape, position, whole⟩ := ih inside
        refine ⟨first :: front, back, by rw [shape]; rfl, ?_, fun marked => ?_⟩
        · rw [List.length_cons]
          omega
        · rw [whole marked, List.flatMap_cons, List.append_assoc]

namespace Carries

variable {blocks : List Block} {message : Message} (carries : Carries blocks message)
  (block : Block) (member : block ∈ blocks)
include carries member

theorem whole_payload (number : block.hdr.mFragNum = 0) : block.payload = message.payload := by
  cases carries with
  | whole only number => rw [List.mem_singleton.mp member]
  | pieces name blocks payload fragments =>
      obtain ⟨front, _, _, position, _⟩ := fragments.split block member
      rw [number] at position
      simp at position

theorem split (number : block.hdr.mFragNum ≠ 0) :
    ∃ front back, blocks = front ++ block :: back ∧
      block.hdr.mFragNum.toNat = front.length + 1 ∧
      (block.hdr.isLastFragment = true →
        message.payload = front.flatMap (·.payload) ++ block.payload) := by
  cases carries with
  | whole only zero =>
      rw [List.mem_singleton.mp member] at number
      exact absurd zero number
  | pieces name blocks payload fragments =>
      simpa only [Nat.zero_add] using fragments.split block member

end Carries

/-- Two fragments in a row, each with the send it is from: when the second one
continues the numbering of the first, both are from the same send. -/
def SameSend {α : Type} (number : α → Nat) (first second : Nat × α) : Prop :=
  number second.2 = number first.2 + 1 → first.1 = second.1

/-- What is being put together are the first blocks of one send, the last of them
the fragment that arrived before. -/
def Tracks (parts : Nat → List Block) (last : Option (Nat × Block)) (frag : Reassembly) : Prop :=
  frag.Idle ∨ ∃ send block front back, last = some (send, block) ∧ parts send = front ++ back ∧
    block.fragNum = front.length ∧ frag.Partial front.length (front.flatMap (·.payload))

/-- A fragment that arrives behind one of the same send, or whose number does not
fit, completes at most the message it is from. -/
theorem Tracks.step {parts : Nat → List Block} {last : Option (Nat × Block)} {frag : Reassembly}
    (tracks : Tracks parts last frag) (send : Nat) (block : Block) (message : Message)
    (carries : Carries (parts send) message) (member : block ∈ parts send) (sound : block.Sound)
    (number : block.hdr.mFragNum ≠ 0)
    (neighbours : ∀ before, last = some before → SameSend Block.fragNum before (send, block)) :
    (∀ whole, (Tport.assemble frag block.hdr block.payload).1 = some whole →
      whole = message.payload) ∧
    Tracks parts (some (send, block)) (Tport.assemble frag block.hdr block.payload).2 := by
  obtain ⟨front, back, shape, position, ends⟩ := carries.split block member number
  by_cases follows : block.hdr.mFragNum.toNat = frag.mFragNum + 1
  · have holds : frag.Holds front.length (front.flatMap (·.payload)) := by
      rcases tracks with idle | ⟨before, other, front', back', rfl, shape', position', started⟩
      · have first : front = [] := by
          apply List.eq_nil_of_length_eq_zero
          rw [idle.1] at follows
          omega
        rw [first]
        exact idle.holds
      · have continues : block.fragNum = other.fragNum + 1 := by
          rw [position', ← started.number]
          exact follows
        have same : before = send := neighbours (before, other) rfl continues
        have length : front'.length = front.length := by
          rw [started.number] at follows
          omega
        rw [same, shape] at shape'
        have front_eq : front = front' := List.append_inj_left shape' length.symm
        subst front_eq
        exact Or.inr started
    have step := Tport.assemble_next frag _ _ block.hdr block.payload holds sound.sized
      (by rw [holds.number] at follows; exact follows)
    by_cases marked : block.hdr.isLastFragment = true
    · simp only [marked, ↓reduceIte] at step
      obtain ⟨after, ran, empty⟩ := step
      rw [ran]
      refine ⟨?_, Or.inl empty⟩
      rintro whole ⟨⟩
      exact (ends marked).symm
    · simp only [marked, Bool.false_eq_true, ↓reduceIte] at step
      obtain ⟨after, ran, started⟩ := step
      rw [ran]
      refine ⟨fun _ returned => (by cases returned), Or.inr ⟨send, block, front ++ [block], back,
        rfl, by rw [shape]; simp, ?_, ?_⟩⟩
      · rw [List.length_append, Block.fragNum, position]
        rfl
      · simpa using started
  · rw [Tport.assemble_other frag block.hdr block.payload follows]
    exact ⟨fun _ returned => (by cases returned), Or.inl (Tport.assembleInvalid_idle frag)⟩

/-- Over a whole run of surviving blocks, only messages that were sent come out. -/
theorem Receiver.takeAll_survivors (name : Bytes) (parts : Nat → List Block)
    (sent : Message → Prop) (survivors : List (Nat × Block))
    (origin : ∀ arrived ∈ survivors, ∃ message, sent message ∧ message.topic = name ∧
      Carries (parts arrived.1) message ∧ arrived.2 ∈ parts arrived.1)
    (sound : ∀ arrived ∈ survivors, arrived.2.Sound) (last : Option (Nat × Block))
    (unspliced : List.IsChain (SameSend Block.fragNum)
      (last.toList ++ survivors.filter (·.2.fragNum ≠ 0)))
    (receiver : Receiver) (frag : Reassembly) (listening : receiver name = some frag)
    (tracks : Tracks parts last frag) :
    ∀ message ∈ (takeAll (survivors.map (·.2)) receiver).2, sent message := by
  induction survivors generalizing last receiver frag with
  | nil => simp
  | cons arrived rest ih =>
      obtain ⟨message, wasSent, topic, carries, member⟩ := origin arrived (by simp)
      have named : arrived.2.name = name := by
        rw [← topic]
        exact carries.name_eq arrived.2 member
      have here : receiver arrived.2.name = some frag := by rw [named, listening]
      have later := ih (fun other inside => origin other (by simp [inside]))
        (fun other inside => sound other (by simp [inside]))
      rw [List.map_cons, takeAll_cons]
      simp only [List.mem_append]
      by_cases number : arrived.2.hdr.mFragNum = 0
      · have skipped : (arrived :: rest).filter (·.2.fragNum ≠ 0) =
            rest.filter (·.2.fragNum ≠ 0) := by
          simp [Block.fragNum, number]
        rw [skipped] at unspliced
        rw [take_whole arrived.2 receiver frag here number]
        rintro delivered (inside | inside)
        · rw [List.mem_singleton.mp inside, carries.whole_payload arrived.2 member number, named,
            ← topic]
          exact wasSent
        · exact later last unspliced receiver frag listening tracks delivered inside
      · have kept : (arrived :: rest).filter (·.2.fragNum ≠ 0) =
            arrived :: rest.filter (·.2.fragNum ≠ 0) := by
          have positive : arrived.2.fragNum ≠ 0 := fun zero =>
            number (UInt8.toNat_inj.mp (by simpa [Block.fragNum] using zero))
          simp [positive]
        rw [kept] at unspliced
        have neighbours : ∀ before, last = some before →
            SameSend Block.fragNum before arrived := by
          rintro before rfl
          exact List.isChain_cons_cons.mp unspliced |>.1
        obtain ⟨complete, moved⟩ := tracks.step arrived.1 arrived.2 message carries member
          (sound arrived (by simp)) number neighbours
        rw [take_fragment arrived.2 receiver frag here number]
        rintro delivered (inside | inside)
        · obtain ⟨whole, returned, rfl⟩ := List.mem_map.mp inside
          rw [complete whole (Option.mem_toList.mp returned), named, ← topic]
          exact wasSent
        · refine later (some arrived) ?_ _ _ (named ▸ set_self _ _ _) moved delivered inside
          cases last with
          | none => exact unspliced
          | some before => exact (List.isChain_cons_cons.mp unspliced).2

namespace Pub

/-- Send the payloads one after the other; every packet is noted with the number of
its send. -/
def sendAll (mPacketSize : UInt16) (pub : Pub) :
    Nat → List Bytes → Except Fault (List (Nat × Bytes))
  | _, [] => .ok []
  | send, payload :: rest => do
      let packets ← pub.send mPacketSize payload
      let later ← sendAll mPacketSize pub (send + 1) rest
      return packets.map (send, ·) ++ later

/-- Every packet is from the send it is noted with. -/
theorem sendAll_mem (mPacketSize : UInt16) (pub : Pub) (first : Nat) (payloads : List Bytes)
    (packets : List (Nat × Bytes)) (sends : pub.sendAll mPacketSize first payloads = .ok packets)
    (packet : Nat × Bytes) (member : packet ∈ packets) :
    first ≤ packet.1 ∧ ∃ payload sent, payloads[packet.1 - first]? = some payload ∧
      pub.send mPacketSize payload = .ok sent ∧ packet.2 ∈ sent := by
  induction payloads generalizing first packets with
  | nil =>
      cases sends
      cases member
  | cons payload rest ih =>
      cases ran : pub.send mPacketSize payload with
      | error failure =>
          simp only [sendAll, ran, bind, Except.bind] at sends
          cases sends
      | ok sent =>
          cases later : pub.sendAll mPacketSize (first + 1) rest with
          | error failure =>
              simp only [sendAll, ran, later, bind, Except.bind] at sends
              cases sends
          | ok others =>
              simp only [sendAll, ran, later, bind, Except.bind, pure, Except.pure] at sends
              cases sends
              rcases List.mem_append.mp member with here | inside
              · obtain ⟨bytes, inSent, rfl⟩ := List.mem_map.mp here
                exact ⟨Nat.le_refl _, payload, sent, by simp, ran, inSent⟩
              · obtain ⟨behind, other, otherSent, found, sends, inSent⟩ :=
                  ih (first + 1) others later inside
                refine ⟨by omega, other, otherSent, ?_, sends, inSent⟩
                obtain ⟨index, shift⟩ : ∃ n, packet.1 - first = n + 1 :=
                  ⟨packet.1 - first - 1, by omega⟩
                rw [shift, List.getElem?_cons_succ]
                rw [show packet.1 - (first + 1) = index by omega] at found
                exact found

/-- With a longer topic the size field is three, and the byte it points to is a
letter of the topic: the receiver drops the packet. -/
theorem packet_longTopic (topic : Topic) (long : ¬ topic.mTopic.chars.length ≤ 249)
    (fragNum flags : UInt8) (payload : Bytes)
    (last : (block topic fragNum flags payload).hdr.isLastInPacket = true) :
    Handler.packet (block topic fragNum flags payload).bytes = Step.skip := by
  have within := topic.within
  have size : (block topic fragNum flags payload).hdr.mTopicSize.toNat = 3 := by
    simp only [block, makeHeader, UInt8.toNat_ofNat', headerSize, TportHeader.size, topicSize,
      topicSizeLimit] at within ⊢
    omega
  have read : Handler.header (block topic fragNum flags payload).bytes 0 =
      .ok (block topic fragNum flags payload).hdr := by
    have at_front := Handler.header_at [] [] (block topic fragNum flags payload)
    simpa using at_front
  have enough : ¬ (block topic fragNum flags payload).bytes.length < 5 := by
    rw [block_length, headerSize, TportHeader.size]
    omega
  -- The byte in question is the third letter.
  have letter : (block topic fragNum flags payload).bytes[7]? = topic.mTopic.chars[2]? := by
    have area : (block topic fragNum flags payload).bytes = (block topic fragNum flags
        payload).hdr.encode ++ (topic.mTopic.chars ++ ((0 :: List.replicate
        (headerSize topic - TportHeader.size - topicSize topic) 0) ++ payload)) := by
      simp only [Block.bytes, HeaderBlock.bytes, block, makeHeader, List.append_assoc]
    rw [area, List.getElem?_append_right (by rw [TportHeader.encode_length, TportHeader.size]; omega),
      TportHeader.encode_length, TportHeader.size, List.getElem?_append_left (by omega)]
  obtain ⟨c, third⟩ : ∃ c, topic.mTopic.chars[2]? = some c :=
    ⟨_, List.getElem?_eq_getElem (by omega)⟩
  have plain : c ≠ 0 := fun zero => topic.mTopic.plain (zero ▸ List.mem_of_getElem? third)
  have refused : Handler.checkHeader (block topic fragNum flags payload).bytes 0
      (block topic fragNum flags payload).bytes.length = .ok false := by
    simp only [Handler.checkHeader, TportHeader.size, if_neg enough, read, bind, Except.bind, pure,
      Except.pure, size, letter, third, Handler.inside]
    split
    · rfl
    · simpa using plain
  funext topics
  simp only [Handler.packet, read, last, ↓reduceIte, Handler.single, refused, bind, Except.bind,
    Bool.not_false, pure, Except.pure, Step.skip]

/-- A publisher whose topic has a longer name reaches nobody. -/
theorem packets_longTopic (topic : Topic) (long : ¬ topic.mTopic.chars.length ≤ 249)
    (packets : List Bytes) (headed : Headed topic packets) :
    Handler.packets packets = Step.skip := by
  induction packets with
  | nil => rfl
  | cons packet rest ih =>
      obtain ⟨fragNum, flags, payload, rfl, last⟩ := headed packet (by simp)
      have later := ih (fun other member => headed other (by simp [member]))
      rw [Handler.packets] at later ⊢
      rw [List.map_cons, Step.all_cons, packet_longTopic topic long _ _ _ last, later,
        Step.andThen_skip]

/-- The blocks of every send, as far as it came back. -/
theorem exists_parts (mPacketSize : UInt16) (pub : Pub) (payloads : List Bytes)
    (named : pub.mTopic.mTopic.chars.length ≤ 249)
    (few : ∀ payload ∈ payloads, payload.length ≤ 255 * (mPacketSize.toNat - pub.mHeaderSize)) :
    ∃ parts : Nat → List Block, ∀ (send : Nat) payload sent, payloads[send]? = some payload →
      pub.send mPacketSize payload = .ok sent → sent = (parts send).map Block.bytes ∧
        ∀ block ∈ parts send, block.Alone mPacketSize ∧
          Carries (parts send) ⟨pub.mTopic.mTopic.chars, payload⟩ := by
  have each : ∀ send : Nat, ∃ blocks : List Block, ∀ payload sent, payloads[send]? = some payload →
      pub.send mPacketSize payload = .ok sent → sent = blocks.map Block.bytes ∧
        ∀ block ∈ blocks, block.Alone mPacketSize ∧
          Carries blocks ⟨pub.mTopic.mTopic.chars, payload⟩ := by
    intro send
    cases found : payloads[send]? with
    | none => exact ⟨[], fun _ _ absent => by cases absent⟩
    | some payload =>
        cases ran : pub.send mPacketSize payload with
        | error failure =>
            refine ⟨[], ?_⟩
            rintro _ sent ⟨⟩ sends
            rw [ran] at sends
            cases sends
        | ok packets =>
            rcases send_ok mPacketSize pub payload packets ran named
              (few payload (List.mem_of_getElem? found)) with rfl | ⟨blocks, rfl, alone, carries⟩
            · refine ⟨[], ?_⟩
              rintro _ sent ⟨⟩ sends
              rw [ran] at sends
              cases sends
              exact ⟨rfl, List.forall_mem_nil _⟩
            · refine ⟨blocks, ?_⟩
              rintro _ sent ⟨⟩ sends
              rw [ran] at sends
              cases sends
              exact ⟨rfl, fun block member => ⟨alone block member, carries⟩⟩
  choose parts spec using each
  exact ⟨parts, spec⟩

private theorem exists_map {α β : Type} (f : β → α) (holds : β → Prop) (l : List α)
    (each : ∀ x ∈ l, ∃ y, f y = x ∧ holds y) : ∃ l' : List β, l'.map f = l ∧ ∀ y ∈ l', holds y := by
  induction l with
  | nil => exact ⟨[], rfl, List.forall_mem_nil _⟩
  | cons x rest ih =>
      obtain ⟨y, rfl, here⟩ := each x (by simp)
      obtain ⟨others, rfl, later⟩ := ih (fun other member => each other (by simp [member]))
      exact ⟨y :: others, rfl, List.forall_mem_cons.mpr ⟨here, later⟩⟩

/-- A block that arrives, with the number of the send it is from: it is one of the
blocks of that send, which carry one of the payloads. -/
structure Placed (mPacketSize : UInt16) (pub : Pub) (payloads : List Bytes)
    (parts : Nat → List Block) (arrived : Nat × Block) : Prop where
  part : arrived.2 ∈ parts arrived.1
  alone : arrived.2.Alone mPacketSize
  carries : ∃ payload ∈ payloads, Carries (parts arrived.1) ⟨pub.mTopic.mTopic.chars, payload⟩

/-- What survives of the packets sent is what survives of the blocks. -/
theorem exists_placed (mPacketSize : UInt16) (pub : Pub) (payloads : List Bytes)
    (packets survivors : List (Nat × Bytes))
    (sends : pub.sendAll mPacketSize 0 payloads = .ok packets)
    (named : pub.mTopic.mTopic.chars.length ≤ 249)
    (few : ∀ payload ∈ payloads, payload.length ≤ 255 * (mPacketSize.toNat - pub.mHeaderSize))
    (survive : survivors.Sublist packets) :
    ∃ (parts : Nat → List Block) (blocks : List (Nat × Block)),
      blocks.map (fun arrived => (arrived.1, arrived.2.bytes)) = survivors ∧
        ∀ arrived ∈ blocks, Placed mPacketSize pub payloads parts arrived := by
  obtain ⟨parts, spec⟩ := exists_parts mPacketSize pub payloads named few
  refine ⟨parts, exists_map _ _ survivors ?_⟩
  intro arrived member
  obtain ⟨_, payload, sent, found, ran, inSent⟩ :=
    sendAll_mem mPacketSize pub 0 payloads packets sends arrived (survive.subset member)
  obtain ⟨rfl, each⟩ := spec arrived.1 payload sent found ran
  obtain ⟨block, inside, bytes⟩ := List.mem_map.mp inSent
  exact ⟨(arrived.1, block), by rw [bytes],
    ⟨inside, (each block inside).1, payload, List.mem_of_getElem? found, (each block inside).2⟩⟩

/-- Whatever is idle before such blocks arrive makes only sent messages of them. -/
theorem takeAll_placed {mPacketSize : UInt16} {pub : Pub} {payloads : List Bytes}
    {parts : Nat → List Block} {blocks : List (Nat × Block)}
    (placed : ∀ arrived ∈ blocks, Placed mPacketSize pub payloads parts arrived)
    (unspliced : List.IsChain (SameSend Block.fragNum) (blocks.filter (·.2.fragNum ≠ 0)))
    (receiver : Receiver)
    (idle : ∀ frag, receiver pub.mTopic.mTopic.chars = some frag → frag.Idle) :
    ∀ message ∈ (receiver.takeAll (blocks.map (·.2))).2, message.payload ∈ payloads := by
  intro message delivered
  cases view : receiver pub.mTopic.mTopic.chars with
  | none =>
      have silent := Receiver.takeAll_deaf pub.mTopic.mTopic.chars (blocks.map (·.2)) receiver
        (by
          intro block member
          obtain ⟨arrived, inside, rfl⟩ := List.mem_map.mp member
          obtain ⟨_, _, carries⟩ := (placed arrived inside).carries
          exact carries.name_eq arrived.2 (placed arrived inside).part) view
      rw [silent] at delivered
      cases delivered
  | some frag =>
      exact Receiver.takeAll_survivors pub.mTopic.mTopic.chars parts
        (fun message => message.payload ∈ payloads) blocks
        (fun arrived inside => by
          obtain ⟨payload, given, carries⟩ := (placed arrived inside).carries
          exact ⟨_, given, rfl, carries, (placed arrived inside).part⟩)
        (fun arrived inside => (placed arrived inside).alone.sound) none
        (by simpa using unspliced) receiver frag view (Or.inl (idle frag view)) message delivered

/-- Lossy delivery: over any surviving packets in which two fragments of different
sends never continue each other's numbers, only sent messages come out. -/
theorem lossy_delivers_sent (mPacketSize : UInt16) (pub : Pub) (payloads : List Bytes)
    (packets survivors : List (Nat × Bytes))
    (sends : pub.sendAll mPacketSize 0 payloads = .ok packets)
    (few : ∀ payload ∈ payloads, payload.length ≤ 255 * (mPacketSize.toNat - pub.mHeaderSize))
    (survive : survivors.Sublist packets)
    (unspliced : List.IsChain (SameSend packetFragNum)
      (survivors.filter (packetFragNum ·.2 ≠ 0)))
    (topics : List TportTopic) (sound : Topics.Sound topics)
    (idle : ∀ ttopic, Topics.find topics pub.mTopic.mTopic.chars = some ttopic →
      ttopic.frag.Idle) :
    ∃ topics' sent, Handler.packets (survivors.map (·.2)) topics = .ok (topics', sent) ∧
      ∀ dispatch ∈ sent, dispatch.payload ∈ payloads := by
  by_cases named : pub.mTopic.mTopic.chars.length ≤ 249
  · obtain ⟨parts, blocks, rfl, placed⟩ :=
      exists_placed mPacketSize pub payloads packets survivors sends named few survive
    have bytes : (blocks.map (fun arrived => (arrived.1, arrived.2.bytes))).map (·.2) =
        (blocks.map (·.2)).map Block.bytes := by
      simp only [List.map_map]
      rfl
    have chain : List.IsChain (SameSend Block.fragNum) (blocks.filter (·.2.fragNum ≠ 0)) := by
      rw [List.filter_map, List.isChain_map] at unspliced
      simp only [SameSend, Function.comp_def, packetFragNum_bytes] at unspliced
      exact unspliced
    obtain ⟨topics', sent, ran, implements, shows⟩ := Handler.packets_alone mPacketSize
      (blocks.map (·.2))
      (by
        intro block member
        obtain ⟨arrived, inside, rfl⟩ := List.mem_map.mp member
        exact (placed arrived inside).alone)
      topics topics (Topics.receiver topics) (Topics.Implements.refl sound)
    refine ⟨topics', sent, by rw [bytes]; exact ran, ?_⟩
    intro dispatch member
    obtain ⟨message, delivered, shown⟩ := Topics.shows_mem shows dispatch member
    rw [shown.2.1]
    refine takeAll_placed placed chain (Topics.receiver topics) ?_ message delivered
    intro frag view
    obtain ⟨ttopic, found, rfl, _⟩ :=
      Handler.Implements.lookup (Topics.Implements.refl sound) view
    exact idle ttopic found
  · have headed : Headed pub.mTopic (survivors.map (·.2)) := by
      intro packet member
      obtain ⟨arrived, inside, rfl⟩ := List.mem_map.mp member
      obtain ⟨_, payload, sent, _, ran, inSent⟩ :=
        sendAll_mem mPacketSize pub 0 payloads packets sends arrived (survive.subset inside)
      exact sendNested_headed mPacketSize pub 2 payload sent ran arrived.2 inSent
    rw [packets_longTopic pub.mTopic named _ headed]
    exact ⟨topics, [], rfl, List.forall_mem_nil _⟩

theorem ticker_sendAll : ticker.sendAll 20 0 [[1, 2, 3, 4, 5, 6], [7, 8, 9, 10, 11, 12]] =
    .ok [(0, tickPacket 1 false [1, 2, 3, 4]), (0, tickPacket 2 true [5, 6]),
      (1, tickPacket 1 false [7, 8, 9, 10]), (1, tickPacket 2 true [11, 12])] := rfl

/-- With the first packet of the first message lost, the second message comes out. -/
theorem lossy_delivers_ticker : ∃ topics' sent,
    Handler.packets [tickPacket 2 true [5, 6], tickPacket 1 false [7, 8, 9, 10],
      tickPacket 2 true [11, 12]] [tickNode] = .ok (topics', sent) ∧
      ∀ dispatch ∈ sent, dispatch.payload ∈ [[1, 2, 3, 4, 5, 6], [7, 8, 9, 10, 11, 12]] :=
  lossy_delivers_sent 20 ticker _ _
    [(0, tickPacket 2 true [5, 6]), (1, tickPacket 1 false [7, 8, 9, 10]),
      (1, tickPacket 2 true [11, 12])]
    ticker_sendAll (by decide) (List.sublist_cons_self _ _)
    (by
      refine List.isChain_cons_cons.mpr ⟨?_, List.isChain_cons_cons.mpr ⟨?_, .singleton _⟩⟩
      · intro continues
        exact absurd continues (by decide)
      · exact fun _ => rfl)
    [tickNode] tickNode_awaits.sound (by
      intro ttopic found
      cases found
      exact Reassembly.zero_idle)

/-- With the two packets in the middle lost, the head of the first message and the
tail of the second come out as one. -/
theorem lossy_splices : ∃ packets survivors : List (Nat × Bytes),
    ticker.sendAll 20 0 [[1, 2, 3, 4, 5, 6], [7, 8, 9, 10, 11, 12]] = .ok packets ∧
      survivors.Sublist packets ∧
      ∃ topics' sent, Handler.packets (survivors.map (·.2)) [tickNode] = .ok (topics', sent) ∧
        ∃ dispatch ∈ sent,
          dispatch.payload ∉ [[1, 2, 3, 4, 5, 6], [7, 8, 9, 10, 11, 12]] :=
  ⟨_, [(0, tickPacket 1 false [1, 2, 3, 4]), (1, tickPacket 2 true [11, 12])], ticker_sendAll,
    by decide, _, [⟨[47, 47, 116], [1, 2, 3, 4, 11, 12], [1, 2]⟩], rfl, _, List.mem_singleton_self _,
    by decide⟩

end Pub

end Sbf
