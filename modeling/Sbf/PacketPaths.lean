import Sbf.ReceiveMemory

set_option autoImplicit false

/-! The two paths of `sbfHandler_packet` as they are written, with the buffers that each of them
hands on: the packet's own in place, or new ones around a part of its memory. -/

namespace Sbf.PacketPaths

open Octets Handler Receiving

/-- What `mData` points to: into the packet's memory, or to fragments put together. -/
inductive Pointer where
  | packet (offset : Nat)
  | fragments (data : Bytes)
  deriving DecidableEq, Repr

/-- The fields of `struct sbfBufferImpl` that `sbfHandler_packet` uses; the count is beside it. -/
structure PacketBuffer where
  mData : Pointer
  mSize : Nat
  mDestroyCb : BufferDestroyCb
  mLocked : Bool
  deriving DecidableEq, Repr

/-- A call of `sbfSub_message` that came to a callback or an item. -/
structure Delivered where
  sub : SubId
  buffer : Nat
  delivery : Delivery
  deriving DecidableEq, Repr

/-- What the code outside knows: the subscriptions, and what a callback that is called at once
does to them. -/
structure Application (W : Type) where
  subs : W → SubId → Sub
  mMessageCb : W → SubId → Bytes → W

/-- The nodes of the stream, the buffers, and the application. -/
structure PathState (W : Type) where
  mTopics : List TportTopic
  buffers : RefMemory PacketBuffer
  world : W

abbrev Path (W : Type) := Step Fault (PathState W) Delivered

section Buffers

variable {W : Type} (memory : Bytes) (packet : Nat)

/-- The bytes that a buffer has, as long as the memory is there. -/
def content (buffers : RefMemory PacketBuffer) (id : Nat) : Except Fault Bytes := do
  let buffer ← alive (buffers.find id)
  match buffer.mData with
  | .packet offset => do
      let _ ← alive (buffers.find packet)
      inside (slice memory offset buffer.mSize)
  | .fragments data => inside (slice data 0 buffer.mSize)

/-- `sbfBuffer_destroy`, with `sbfHandlerBufferDestroyCb` and
`sbfTportFragmentBufferDestroyCb`. -/
def destroyBuffer : Nat → Nat → RefMemory PacketBuffer → Except Fault (RefMemory PacketBuffer)
  | 0, _, _ => .error .endless
  | fuel + 1, id, buffers => do
      let (buffers, last) ← alive (buffers.drop id)
      match last with
      | some ⟨_, _, .handlerBuffer closure, _⟩ => destroyBuffer fuel closure buffers
      | _ => return buffers

/-- A wrapping buffer is newer than what it wraps. -/
def destroy (id : Nat) (state : PathState W) : Except Fault (PathState W) := do
  let buffers ← destroyBuffer (id + 1) id state.buffers
  return { state with buffers := buffers }

/-- `sbfBuffer_wrap` -/
def wrap (data : Pointer) (size : Nat) (cb : BufferDestroyCb) (state : PathState W) :
    Nat × PathState W :=
  (state.buffers.fresh,
    { state with buffers := state.buffers.obtain ⟨data, size, cb, false⟩ })

/-- `sbfBuffer_setData` and `sbfBuffer_setSize`, which end the process on a locked buffer. -/
def setData (id : Nat) (data : Pointer) (size : Nat) (state : PathState W) :
    Except Fault (PathState W) := do
  let buffer ← alive (state.buffers.find id)
  if buffer.mLocked then throw .assertion
  let buffers ← alive
    (state.buffers.modify (fun buffer => { buffer with mData := data, mSize := size }) id)
  return { state with buffers := buffers }

end Buffers

section Paths

variable {W : Type} (app : Application W) (memory : Bytes) (packet : Nat)

/-- `sbfSub_message` -/
def message (id : Nat) (sub : SubId) : Path W := fun state => do
  let payload ← content memory packet state.buffers id
  match (app.subs state.world sub).message payload with
  | none => return (state, [])
  | some (.called payload) =>
      return ({ state with world := app.mMessageCb state.world sub payload },
        [⟨sub, id, .called payload⟩])
  | some (.queued payload) => do
      let buffers ← alive (state.buffers.addRef id)
      return ({ state with buffers := buffers }, [⟨sub, id, .queued payload⟩])

/-- `sbfHandlerDispatchMessage` -/
def dispatchMessage (ttopic : TportTopic) (id : Nat) : Path W := fun state => do
  let buffers ← alive
    (state.buffers.modify (fun buffer => { buffer with mLocked := true }) id)
  let payload ← content memory packet buffers id
  let (ttopic, sent) ← ttopic.dispatchMessage payload
  Step.all (sent.served.map (message app memory packet id))
    { state with mTopics := Topics.update state.mTopics ttopic, buffers := buffers }

/-- `sbfTport_assemble`, with the buffer it returns unless that is null. -/
def assemble (ttopic : TportTopic) (hdr : TportHeader) (offset : Nat) (state : PathState W) :
    Except Fault (Option Nat × TportTopic × PathState W) := do
  let payload ← inside
    (slice memory (offset + TportHeader.size + hdr.mTopicSize.toNat) hdr.mSize.toNat)
  let step := Tport.assemble ttopic.frag hdr payload
  let ttopic := { ttopic with frag := step.2 }
  let state := { state with mTopics := Topics.update state.mTopics ttopic }
  match step.1 with
  | none => return (none, ttopic, state)
  | some data =>
      let (returned, state) := wrap (.fragments data) step.2.mFragSize .fragmentBuffer state
      return (some returned, ttopic, state)

/-- The path of `sbfHandler_packet` for a packet with one message. -/
def single (hdr : TportHeader) : Path W := fun state => do
  let buffer ← alive (state.buffers.find packet)
  if !(← checkHeader memory 0 buffer.mSize) then return (state, [])
  match ← findTopic state.mTopics memory 0 with
  | none => return (state, [])
  | some ttopic =>
      if hdr.mFragNum ≠ 0 then
        match ← assemble memory ttopic hdr 0 state with
        | (none, _, state) => return (state, [])
        | (some buffer, ttopic, state) => do
            let (state, out) ← dispatchMessage app memory packet ttopic buffer state
            let state ← destroy buffer state
            return (state, out)
      else do
        let state ← setData packet (.packet (TportHeader.size + hdr.mTopicSize.toNat))
          hdr.mSize.toNat state
        dispatchMessage app memory packet ttopic packet state

/-- The buffer of a message in the loop, unless it is null: from `sbfTport_assemble`, or around
the payload. -/
def newBuffer (ttopic : TportTopic) (hdr : TportHeader) (offset : Nat) (state : PathState W) :
    Except Fault (Option Nat × TportTopic × PathState W) :=
  if hdr.mFragNum ≠ 0 then assemble memory ttopic hdr offset state
  else do
    let buffers ← alive (state.buffers.addRef packet)
    let (made, state) := wrap (.packet (offset + TportHeader.size + hdr.mTopicSize.toNat))
      hdr.mSize.toNat (.handlerBuffer packet) { state with buffers := buffers }
    return (some made, ttopic, state)

/-- The loop's body behind `sbfHandlerCheckHeader`. -/
def body (hdr : TportHeader) (offset : Nat) : Path W := fun state => do
  match ← findTopic state.mTopics memory offset with
  | none => return (state, [])
  | some ttopic =>
      match ← newBuffer memory packet ttopic hdr offset state with
      | (none, _, state) => return (state, [])
      | (some buffer, ttopic, state) => do
          let (state, out) ← dispatchMessage app memory packet ttopic buffer state
          let state ← destroy buffer state
          return (state, out)

/-- The loop of `sbfHandler_packet`. -/
def loop : Nat → Nat → Nat → Path W
  | 0, _, _ => fun _ => .error .endless
  | fuel + 1, offset, size => fun state => do
      if !(← checkHeader memory offset size) then return (state, [])
      let hdr ← header memory offset
      if hdr.isLastInPacket then body app memory packet hdr offset state
      else
        (body app memory packet hdr offset).andThen
          (loop fuel (offset + used hdr) (size - used hdr)) state

/-- `sbfHandler_packet` -/
def handlerPacket : Path W := fun state => do
  let buffer ← alive (state.buffers.find packet)
  let hdr ← header memory 0
  if hdr.isLastInPacket then single app memory packet hdr state
  else loop app memory packet (memory.length + 1) 0 buffer.mSize state

end Paths

end Sbf.PacketPaths
