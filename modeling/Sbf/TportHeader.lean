import Sbf.Octets

set_option autoImplicit false

namespace Sbf

open Octets

/-- `struct sbfTportHeaderImpl`. The topic and its terminator follow at once, and
header plus topic are padded to eight bytes; `mTopicSize` counts what lies
between the header and the payload. -/
structure TportHeader where
  mSize : UInt16
  mFragNum : UInt8
  mTopicSize : UInt8
  mFlags : UInt8
  deriving DecidableEq, Repr

/-- `SBF_MESSAGE_SIZE_LIMIT` -/
def messageSizeLimit : Nat := 65536

/-- What the code can do wrong: read outside a packet, follow a null pointer or one
to freed memory, unlink what is not on a list, fail an assertion, or never leave a loop. -/
inductive Fault where
  | outside
  | null
  | freed
  | unlinked
  | assertion
  | endless
  deriving DecidableEq, Repr

namespace TportHeader

/-- `sizeof (struct sbfTportHeaderImpl)`, which is packed. -/
def size : Nat := 5

/-- `SBF_MESSAGE_FLAG_LAST_IN_PACKET` -/
def lastInPacket : UInt8 := 0x1

/-- `SBF_MESSAGE_FLAG_LAST_FRAGMENT` -/
def lastFragment : UInt8 := 0x2

def isLastInPacket (hdr : TportHeader) : Bool := hdr.mFlags &&& lastInPacket != 0

def isLastFragment (hdr : TportHeader) : Bool := hdr.mFlags &&& lastFragment != 0

/-- `hdr->mFlags |= flag` -/
def setFlag (hdr : TportHeader) (flag : UInt8) : TportHeader :=
  { hdr with mFlags := hdr.mFlags ||| flag }

private theorem or_and_self (flags flag : UInt8) : (flags ||| flag) &&& flag = flag := by
  apply UInt8.toBitVec_inj.mp
  simp only [UInt8.toBitVec_and, UInt8.toBitVec_or]
  ext index inside
  simp only [BitVec.getElem_and, BitVec.getElem_or]
  cases flags.toBitVec[index] <;> cases flag.toBitVec[index] <;> rfl

private theorem or_and_apart (flags flag test : UInt8) (apart : flag &&& test = 0) :
    (flags ||| flag) &&& test = flags &&& test := by
  have split : (flags ||| flag) &&& test = (flags &&& test) ||| (flag &&& test) := by
    apply UInt8.toBitVec_inj.mp
    simp only [UInt8.toBitVec_and, UInt8.toBitVec_or]
    ext index inside
    simp only [BitVec.getElem_and, BitVec.getElem_or, Bool.and_or_distrib_right]
  rw [split, apart, UInt8.or_zero]

@[simp] theorem setFlag_lastInPacket (hdr : TportHeader) :
    (hdr.setFlag lastInPacket).isLastInPacket = true := by
  simp only [isLastInPacket, setFlag, or_and_self]
  decide

/-- Setting one of the two flags leaves the other as it was. -/
@[simp] theorem setFlag_lastInPacket_isLastFragment (hdr : TportHeader) :
    (hdr.setFlag lastInPacket).isLastFragment = hdr.isLastFragment := by
  simp only [isLastFragment, setFlag, or_and_apart _ lastInPacket lastFragment (by decide)]

/-- The five bytes of a header as they lie in a packet. -/
def encode (hdr : TportHeader) : Bytes :=
  wordBytes hdr.mSize ++ [hdr.mFragNum, hdr.mTopicSize, hdr.mFlags]

/-- The header at the front of `bytes`, if five bytes are there. -/
def decode : Bytes → Option TportHeader
  | low :: high :: fragNum :: topicSize :: flags :: _ =>
      some ⟨word low high, fragNum, topicSize, flags⟩
  | _ => none

@[simp] theorem encode_length (hdr : TportHeader) : hdr.encode.length = size := rfl

theorem decode_encode (hdr : TportHeader) (rest : Bytes) :
    decode (hdr.encode ++ rest) = some hdr := by
  have same := word_wordBytes hdr.mSize
  simp only [encode, wordBytes, List.cons_append, List.nil_append, decode, same]

theorem decode_isSome_iff (bytes : Bytes) :
    (∃ hdr, decode bytes = some hdr) ↔ size ≤ bytes.length := by
  unfold size
  constructor
  · rintro ⟨hdr, read⟩
    unfold decode at read
    split at read
    · simp only [List.length_cons]
      omega
    · cases read
  · intro long
    obtain ⟨a, b, c, d, e, rest, rfl⟩ : ∃ a b c d e rest,
        bytes = a :: b :: c :: d :: e :: rest := by
      rcases bytes with _ | ⟨a, _ | ⟨b, _ | ⟨c, _ | ⟨d, _ | ⟨e, rest⟩⟩⟩⟩⟩
      all_goals first
        | exact ⟨_, _, _, _, _, _, rfl⟩
        | (simp only [List.length_cons, List.length_nil] at long; omega)
    exact ⟨_, rfl⟩

end TportHeader

/-- A header together with the topic area behind it: the memory behind
`sbfPub.mHeader`, and the front of every message. -/
structure HeaderBlock where
  hdr : TportHeader
  area : Bytes
  deriving DecidableEq, Repr

/-- One message or fragment in a packet: header, topic area, payload. -/
structure Block extends HeaderBlock where
  payload : Bytes
  deriving DecidableEq, Repr

def HeaderBlock.bytes (block : HeaderBlock) : Bytes := block.hdr.encode ++ block.area

def Block.bytes (block : Block) : Bytes := block.toHeaderBlock.bytes ++ block.payload

theorem Block.bytes_length (block : Block) :
    block.bytes.length = TportHeader.size + block.area.length + block.payload.length := by
  simp only [Block.bytes, HeaderBlock.bytes, List.length_append, TportHeader.encode_length]

end Sbf
