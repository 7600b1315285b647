import Sbf.HandlerBlocks
import Sbf.TopicCreate

set_option autoImplicit false

namespace Sbf

open Octets

/-- The address of a `struct sbfTportStreamImpl`. -/
abbrev StreamId := Nat

namespace Pub

/-- `strlen (topic) + 1` -/
def topicSize (topic : Topic) : Nat := topic.mTopic.chars.length + 1

/-- `mHeaderSize`; dividing and multiplying by eight is the mask `& ~7`. -/
def headerSize (topic : Topic) : Nat := (TportHeader.size + topicSize topic) / 8 * 8 + 8

/-- `sbfPubMakeHeader`: zeroed memory of `mHeaderSize` bytes, the size of the
topic area in its eight-bit field, and the topic with its terminator. -/
def makeHeader (topic : Topic) : HeaderBlock where
  hdr := ⟨0, 0, UInt8.ofNat (headerSize topic - TportHeader.size), 0⟩
  area := topic.mTopic.chars ++ 0 ::
    List.replicate (headerSize topic - TportHeader.size - topicSize topic) 0

theorem room (topic : Topic) : topicSize topic < headerSize topic - TportHeader.size := by
  simp only [headerSize, TportHeader.size]
  omega

theorem makeHeader_area_length (topic : Topic) :
    (makeHeader topic).area.length = headerSize topic - TportHeader.size := by
  have enough := room topic
  simp only [makeHeader, List.length_append, List.length_cons, List.length_replicate]
  rw [topicSize] at enough ⊢
  omega

theorem makeHeader_bytes_length (topic : Topic) :
    (makeHeader topic).bytes.length = headerSize topic := by
  have enough := room topic
  rw [HeaderBlock.bytes, List.length_append, TportHeader.encode_length, makeHeader_area_length]
  omega

/-- The area ends in padding. -/
theorem makeHeader_area_getLast (topic : Topic) : (makeHeader topic).area.getLast? = some 0 := by
  have enough := room topic
  obtain ⟨padding, shape⟩ : ∃ n,
      headerSize topic - TportHeader.size - topicSize topic = n + 1 :=
    ⟨headerSize topic - TportHeader.size - topicSize topic - 1, by omega⟩
  rw [makeHeader, shape, List.getLast?_append_of_ne_nil _ (by simp), List.replicate_succ',
    ← List.cons_append, List.getLast?_concat]

theorem makeHeader_area_name (topic : Topic) :
    (makeHeader topic).area.takeWhile (· ≠ 0) = topic.mTopic.chars :=
  takeWhile_terminated _ _ topic.mTopic.plain

/-- The topic area fits its eight-bit size field up to a name of 249 bytes. -/
theorem mTopicSize_exact_iff (topic : Topic) :
    (makeHeader topic).hdr.mTopicSize.toNat = headerSize topic - TportHeader.size ↔
      topic.mTopic.chars.length ≤ 249 := by
  have within := topic.within
  simp only [makeHeader, UInt8.toNat_ofNat', headerSize, TportHeader.size, topicSize,
    topicSizeLimit] at within ⊢
  omega

end Pub

/-- The fields of `struct sbfPubImpl` that the send path reads. The header is
made once, from the topic, when the publisher is created. -/
structure Pub where
  self : PubId
  mTportStream : StreamId
  mTopic : Topic
  mDestroyed : Bool
  mReady : Bool
  mHeader : HeaderBlock
  mHeaderSize : Nat
  made : mHeader = Pub.makeHeader mTopic ∧ mHeaderSize = Pub.headerSize mTopic

namespace Pub

/-- The header in front of a payload, as the send paths fill it in. -/
def block (topic : Topic) (fragNum flags : UInt8) (payload : Bytes) : Block where
  hdr := { (makeHeader topic).hdr with
    mSize := UInt16.ofNat payload.length, mFragNum := fragNum, mFlags := flags }
  area := (makeHeader topic).area
  payload := payload

section Block

variable (topic : Topic) (fragNum flags : UInt8) (payload : Bytes)

@[simp] theorem block_name : (block topic fragNum flags payload).name = topic.mTopic.chars :=
  makeHeader_area_name topic

@[simp] theorem block_payload : (block topic fragNum flags payload).payload = payload := rfl

theorem block_length : (block topic fragNum flags payload).bytes.length =
    headerSize topic + payload.length := by
  rw [Block.bytes, List.length_append]
  exact congrArg (· + payload.length) (makeHeader_bytes_length topic)

theorem block_sound (named : topic.mTopic.chars.length ≤ 249)
    (limited : payload.length < 65536) : (block topic fragNum flags payload).Sound where
  sized := by
    simp only [block, UInt16.toNat_ofNat']
    omega
  spanned := by
    rw [show (block topic fragNum flags payload).area = (makeHeader topic).area from rfl,
      makeHeader_area_length]
    exact ((mTopicSize_exact_iff topic).mpr named).symm
  ended := makeHeader_area_getLast topic

end Block

/-- What sender and receiver have to agree on for a header in front of a payload:
the header is accepted, the topic is read back, and the payload starts where the
publisher put it. -/
structure HeaderAgreement (topic : Topic) (fragNum flags : UInt8) (payload : Bytes) : Prop where
  accepted : Handler.checkHeader (block topic fragNum flags payload).bytes 0
    (block topic fragNum flags payload).bytes.length = .ok true
  lookup : cstring (block topic fragNum flags payload).bytes TportHeader.size =
    some topic.mTopic.chars
  offset : TportHeader.size + (block topic fragNum flags payload).hdr.mTopicSize.toNat =
    headerSize topic

/-- The name is read from the packet whatever the size field says. -/
theorem block_lookup (topic : Topic) (fragNum flags : UInt8) (payload : Bytes) :
    cstring (block topic fragNum flags payload).bytes TportHeader.size =
      some topic.mTopic.chars := by
  have terminated : 0 ∈ (makeHeader topic).area :=
    List.mem_of_getLast? (makeHeader_area_getLast topic)
  have read := cstring_inside (block topic fragNum flags payload).hdr.encode
    (makeHeader topic).area payload terminated
  rw [makeHeader_area_name, TportHeader.encode_length] at read
  rw [Block.bytes, HeaderBlock.bytes, List.append_assoc]
  exact read

/-- With the size field exact the header is accepted in front of any payload, also
one whose length the 16-bit field truncates. -/
theorem block_accepted (topic : Topic) (fragNum flags : UInt8) (payload : Bytes)
    (named : topic.mTopic.chars.length ≤ 249) :
    Handler.checkHeader (block topic fragNum flags payload).bytes 0
      (block topic fragNum flags payload).bytes.length = .ok true := by
  -- The header announces a prefix of the payload, and nothing behind it is read.
  have truncated : payload.length % 65536 ≤ payload.length := Nat.mod_le _ _
  have shorter := block_sound topic fragNum flags (payload.take (payload.length % 65536)) named
    (by rw [List.length_take]; omega)
  have split : (block topic fragNum flags payload).bytes =
      [] ++ ((block topic fragNum flags (payload.take (payload.length % 65536))).bytes ++
        payload.drop (payload.length % 65536)) := by
    have size : UInt16.ofNat (payload.take (payload.length % 65536)).length =
        UInt16.ofNat payload.length := by
      apply UInt16.toNat_inj.mp
      simp only [UInt16.toNat_ofNat', List.length_take]
      omega
    simp only [block, size, Block.bytes, HeaderBlock.bytes, List.nil_append, List.append_assoc,
      List.take_append_drop]
  rw [split]
  exact Handler.checkHeader_at [] _ _ shorter _ (by simp)

/-- Sender and receiver agree on the header exactly for names of up to 249 bytes:
beyond that the size of the topic area no longer fits its field. -/
theorem headerAgreement_iff (topic : Topic) (fragNum flags : UInt8) (payload : Bytes) :
    HeaderAgreement topic fragNum flags payload ↔ topic.mTopic.chars.length ≤ 249 := by
  have enough := room topic
  rw [← mTopicSize_exact_iff topic]
  constructor
  · intro agreement
    have offset := agreement.offset
    simp only [block] at offset
    omega
  · intro exact_size
    refine ⟨block_accepted topic fragNum flags payload ((mTopicSize_exact_iff topic).mp exact_size),
      block_lookup topic fragNum flags payload, ?_⟩
    simp only [block]
    omega

/-- A topic string of so many letters; the canonical name has two slashes more. -/
def letters (count : Nat) : CString :=
  ⟨List.replicate count 97, fun zero => absurd (List.eq_of_mem_replicate zero) (by decide)⟩

theorem create_letters (type : TopicType) (count : Nat) (within : count + 2 ≤ topicSizeLimit) :
    ∃ topic, Topic.create type (letters count) = some topic ∧
      topic.mTopic.chars.length = count + 2 := by
  have length : (CString.empty.chars ++ slash :: (CString.empty.chars ++
      slash :: (letters count).chars)).length = count + 2 := by
    simp only [CString.empty, letters, List.nil_append, List.length_cons, List.length_replicate]
  obtain ⟨topic, made, name⟩ := Topic.format_some type .empty .empty (letters count)
    (by rw [length]; exact within)
  refine ⟨topic, ?_, by rw [name, length]⟩
  rw [Topic.create_plain, made]
  intro member
  exact absurd (List.eq_of_mem_replicate member) (by decide)

theorem headerAgreement_long : ∃ topic, Topic.create .pub (letters 248) = some topic ∧
    ¬ HeaderAgreement topic 0 TportHeader.lastInPacket [] := by
  obtain ⟨topic, made, length⟩ := create_letters .pub 248 (by decide)
  refine ⟨topic, made, ?_⟩
  intro agreement
  have offset := agreement.offset
  simp only [block, makeHeader, headerSize, topicSize, length] at offset
  exact absurd offset (by decide)

end Pub

end Sbf
