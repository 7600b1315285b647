import Mathlib.Data.UInt
import Sbf.PubRoundTrip

set_option autoImplicit false

/-! The memory behind a buffer: where its data starts, and whether the bytes that the
buffer promises are there. -/

namespace Sbf

open Octets

/-- The fields of `struct sbfBufferImpl` that say where its data is, with the bytes of
the allocation that starts with the structure; `mData` counts from there. -/
structure BufferSpace where
  allocated : Nat
  mData : Nat
  mSize : UInt64
  deriving DecidableEq, Repr

namespace BufferSpace

/-- `sizeof (struct sbfBufferImpl)` on a 64-bit machine. -/
def structSize : UInt64 := 72

/-- `sbfBuffer_createPool`, by the `mItemSize` of the pool. -/
def createPool (size : UInt64) : UInt64 := structSize + size

/-- `sbfBuffer_new`: an allocation of its own, or an item of the pool whatever the size
that is asked for. -/
def new (mPool : Option UInt64) (size : UInt64) : BufferSpace :=
  match mPool with
  | none => ⟨(structSize + size).toNat, structSize.toNat, size⟩
  | some mItemSize => ⟨mItemSize.toNat, structSize.toNat, size⟩

/-- Filling the bytes of the buffer stays inside its allocation. -/
def Roomy (space : BufferSpace) : Prop := space.mData + space.mSize.toNat ≤ space.allocated

instance (space : BufferSpace) : Decidable space.Roomy := inferInstanceAs (Decidable (_ ≤ _))

/-- An allocation of its own has the room unless its size wraps. -/
theorem new_roomy_iff (size : UInt64) :
    (new none size).Roomy ↔ structSize.toNat + size.toNat < UInt64.size := by
  have bound := size.toNat_lt
  simp only [new, Roomy, structSize, UInt64.toNat_add, UInt64.size, UInt64.reduceToNat]
  omega

end BufferSpace

namespace UdpHandler

/-- `mPacketSize` of the handler's table. -/
def mPacketSize : UInt16 := 65507

/-- The pool that `sbfUdpHandlerCreate` makes. -/
def mPool : UInt64 := BufferSpace.createPool 65536

/-- `sbfUdpHandlerGetBuffer` -/
def getBuffer (size : UInt64) : BufferSpace := .new (some mPool) size

end UdpHandler

namespace Pub

/-- `sbfPub_getBuffer`, by the place of the data: behind the header in a buffer of the
handler's, which is made for both. -/
def getBufferSpace (mPacketSize : UInt16) (mGetBuffer : UInt64 → BufferSpace) (pub : Pub)
    (size : UInt64) : BufferSpace :=
  if pub.mDestroyed || !pub.mReady then .new none size
  else if size.toNat > mPacketSize.toNat then .new none size
  else
    let buffer := mGetBuffer (UInt64.ofNat pub.mHeaderSize + size)
    { buffer with mData := buffer.mData + pub.mHeaderSize, mSize := size }

/-- The data starts behind a header exactly when the buffer is the publisher's own. -/
theorem getBufferSpace_mData (mPacketSize : UInt16) (pub : Pub) (pool : Option UInt64)
    (size : UInt64) :
    (pub.getBufferSpace mPacketSize (.new pool) size).mData = BufferSpace.structSize.toNat +
      if (pub.getBuffer mPacketSize size.toNat).mOwner = some pub.self then pub.mHeaderSize else 0 := by
  unfold getBufferSpace getBuffer
  split
  · rfl
  · split
    · rfl
    · cases pool <;> simp [BufferSpace.new]

/-- Header and data have to fit into the pool buffer. -/
theorem pooled_roomy_iff (pub : Pub) (size : UInt64) (free : ¬ (pub.mDestroyed || !pub.mReady) = true)
    (short : ¬ size.toNat > UdpHandler.mPacketSize.toNat) :
    (pub.getBufferSpace UdpHandler.mPacketSize UdpHandler.getBuffer size).Roomy ↔
      pub.mHeaderSize + size.toNat ≤ 65536 := by
  have pool : UdpHandler.mPool.toNat = BufferSpace.structSize.toNat + 65536 := rfl
  rw [getBufferSpace, if_neg free, if_neg short]
  simp only [BufferSpace.Roomy, UdpHandler.getBuffer, BufferSpace.new, pool]
  omega

/-- On the UDP handler the buffer has the room that it promises exactly when header and
data fit into a pool buffer; sizes beyond a packet get their own allocation, which only
has to have a size. -/
theorem getBuffer_roomy_iff (pub : Pub) (size : UInt64) :
    (pub.getBufferSpace UdpHandler.mPacketSize UdpHandler.getBuffer size).Roomy ↔
      if pub.mDestroyed || !pub.mReady || size.toNat > UdpHandler.mPacketSize.toNat then
        BufferSpace.structSize.toNat + size.toNat < UInt64.size
      else pub.mHeaderSize + size.toNat ≤ 65536 := by
  by_cases held : (pub.mDestroyed || !pub.mReady) = true
  · simp only [getBufferSpace, held, ↓reduceIte, Bool.true_or, BufferSpace.new_roomy_iff]
  · by_cases long : size.toNat > UdpHandler.mPacketSize.toNat
    · rw [getBufferSpace, if_neg held, if_pos long, if_pos (by simp [long]),
        BufferSpace.new_roomy_iff]
    · rw [pooled_roomy_iff pub size held long, if_neg (by simp_all)]

/-- A topic of 26 letters makes a header of 40 bytes, and 65,500 bytes behind it leave
the pool buffer. -/
theorem getBuffer_outside : ∃ topic, Topic.create .pub (letters 26) = some topic ∧
    ¬ (getBufferSpace UdpHandler.mPacketSize UdpHandler.getBuffer
      ⟨0, 0, topic, false, true, makeHeader topic, headerSize topic, rfl, rfl⟩ 65500).Roomy := by
  obtain ⟨topic, made, length⟩ := create_letters .pub 26 (by decide)
  have header : headerSize topic = 40 := by rw [headerSize, topicSize, length]; rfl
  refine ⟨topic, made, ?_⟩
  rw [pooled_roomy_iff _ _ (by simp) (by decide)]
  dsimp only
  rw [header]
  decide

end Pub

end Sbf
