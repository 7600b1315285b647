import Sbf.PubSend

set_option autoImplicit false

namespace Sbf

open Octets

/-- Change the header of a block. -/
def Block.mapHdr (f : TportHeader → TportHeader) (block : Block) : Block :=
  { block with hdr := f block.hdr }

/-- `struct sbfBatchItemImpl`. The deque `mBuffers` is split into the buffers in
front and `mCurrent`, which is its last one; `mLast` points to a header in the
current buffer, as an index among its blocks. -/
structure BatchItem where
  mBuffers : List (List Block)
  mCurrent : Option (List Block)
  mLast : Option Nat
  mMessages : Nat
  deriving DecidableEq

namespace BatchItem

/-- Subtraction of `size_t`, which wraps below zero. -/
def sizeSub (left right : Nat) : Nat :=
  if right ≤ left then left - right else left + UInt64.size - right

/-- A new item from the pool. -/
def zero : BatchItem := ⟨[], none, none, 0⟩

/-- Change the header that `mLast` points to, if it points anywhere. -/
def setLast (f : TportHeader → TportHeader) (item : BatchItem) : BatchItem :=
  match item.mLast with
  | none => item
  | some index =>
      { item with mCurrent := item.mCurrent.map (fun blocks => blocks.modify index (·.mapHdr f)) }

/-- The bytes left in the current buffer. -/
def left (mPacketSize : UInt16) (item : BatchItem) : Nat :=
  match item.mCurrent with
  | none => 0
  | some blocks => sizeSub mPacketSize.toNat (Handler.packetBytes blocks).length

/-- `sbfBatchNextBuffer` -/
def nextBuffer (mPacketSize : UInt16) (pub : Pub) (item : BatchItem) :
    Except Fault (BatchItem × Nat) :=
  if item.left mPacketSize ≤ pub.mHeaderSize then
    if item.mLast = none ∧ item.mCurrent ≠ none then .error .assertion
    else
      let flagged := item.setLast (·.setFlag TportHeader.lastInPacket)
      let fresh := { flagged with
        mBuffers := flagged.mBuffers ++ flagged.mCurrent.toList
        mCurrent := some []
        mLast := none }
      .ok (fresh, fresh.left mPacketSize)
  else .ok (item, item.left mPacketSize)

/-- `sbfBatchUpdateBuffer`; the header it returns is the one `mLast` points to. -/
def updateBuffer (mPacketSize : UInt16) (pub : Pub) (data : Bytes) (item : BatchItem) :
    Except Fault BatchItem :=
  match item.mCurrent with
  | none => .error .null
  | some blocks =>
      if (Handler.packetBytes blocks).length + pub.mHeaderSize + data.length >
          mPacketSize.toNat then .error .assertion
      else
        let hdr := { pub.mHeader.hdr with mSize := UInt16.ofNat data.length, mFlags := 0 }
        .ok { item with
          mCurrent := some (blocks ++ [⟨⟨hdr, pub.mHeader.area⟩, data⟩])
          mLast := some blocks.length }

/-- The fragment loop of `sbfBatch_add`, and the statement behind it. -/
def addLoop (mPacketSize : UInt16) (pub : Pub) :
    Nat → Bytes → UInt8 → BatchItem → Nat → Except Fault BatchItem
  | 0, _, _, _, _ => .error .endless
  | fuel + 1, data, number, item, left => do
      let wanted := min data.length (sizeSub left pub.mHeaderSize)
      let item ← updateBuffer mPacketSize pub (data.take wanted) item
      let item := item.setLast (fun hdr => { hdr with mFragNum := number })
      if data.drop wanted ≠ [] then
        let (item, left) ← nextBuffer mPacketSize pub item
        addLoop mPacketSize pub fuel (data.drop wanted) (number + 1) item left
      else
        return item.setLast (fun hdr =>
          if hdr.mFragNum ≠ 0 then hdr.setFlag TportHeader.lastFragment else hdr)

/-- The part of `sbfBatch_add` that works on the stream's item. -/
def add (mPacketSize : UInt16) (pub : Pub) (data : Bytes) (item : BatchItem) :
    Except Fault BatchItem := do
  let item := { item with mMessages := item.mMessages + 1 }
  let (item, left) ← nextBuffer mPacketSize pub item
  if left > pub.mHeaderSize + data.length then updateBuffer mPacketSize pub data item
  else addLoop mPacketSize pub (data.length + 1) data 1 item left

/-- The part of `sbfBatch_send` that works on one item, with the packets it hands
to the handler. -/
def send (item : BatchItem) : BatchItem × List Bytes :=
  let flagged := item.setLast (·.setFlag TportHeader.lastInPacket)
  (⟨[], none, none, 0⟩,
    (flagged.mBuffers ++ flagged.mCurrent.toList).map Handler.packetBytes)

end BatchItem

end Sbf
