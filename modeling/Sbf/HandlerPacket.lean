import Sbf.StepSequences
import Sbf.TportTopics

set_option autoImplicit false

namespace Sbf.Handler

open Octets

/-- A read of the packet that is not allowed to miss. -/
def inside {α : Type} : Option α → Except Fault α
  | none => .error .outside
  | some value => .ok value

/-- The header fields at `offset`. -/
def header (buf : Bytes) (offset : Nat) : Except Fault TportHeader :=
  inside (TportHeader.decode (buf.drop offset))

/-- The bytes of one message: header, topic area and payload. -/
def used (hdr : TportHeader) : Nat :=
  TportHeader.size + hdr.mTopicSize.toNat + hdr.mSize.toNat

/-- `sbfHandler_size`: the bytes of the message at the front, if all of them are
there. -/
def size (data : Bytes) : Nat :=
  match TportHeader.decode data with
  | none => 0
  | some hdr => if data.length < used hdr then 0 else used hdr

/-- `sbfHandlerCheckHeader`. With `mTopicSize` zero the terminator test looks at
the byte in front of the topic, which is `mFlags`. -/
def checkHeader (buf : Bytes) (offset available : Nat) : Except Fault Bool :=
  if available < TportHeader.size then .ok false
  else do
    let hdr ← header buf offset
    if available < used hdr then return false
    let last ← inside buf[offset + TportHeader.size + hdr.mTopicSize.toNat - 1]?
    return last == 0

/-- A node that messages of this topic go to: it exists and has subscriptions. -/
def listening (topics : List TportTopic) (name : Bytes) : Option TportTopic :=
  (Topics.find topics name).filter (fun ttopic => !ttopic.mSubs.isEmpty)

/-- `sbfHandlerFindTopic`. The lookup compares strings, so it reads the packet up
to a terminator, but in an empty tree there is nothing to compare with. -/
def findTopic (topics : List TportTopic) (buf : Bytes) (offset : Nat) :
    Except Fault (Option TportTopic) :=
  match topics with
  | [] => .ok none
  | _ :: _ => do
      let name ← inside (cstring buf (offset + TportHeader.size))
      return listening topics name

/-- What becomes of a message for a node: a fragment goes to reassembly, which
may complete a message, and anything else is a message itself. -/
def received (ttopic : TportTopic) (hdr : TportHeader) (payload : Bytes) :
    Option Bytes × TportTopic :=
  if hdr.mFragNum ≠ 0 then
    let step := Tport.assemble ttopic.frag hdr payload
    (step.1, { ttopic with frag := step.2 })
  else (some payload, ttopic)

/-- What the receive path does to the nodes of a stream, and the messages it
dispatches. -/
abbrev Receive := Step Fault (List TportTopic) Dispatch

/-- A message for a node. Both paths of `sbfHandler_packet` end here, only the
buffers they hand on differ: the packet itself or one wrapped around a part. -/
def message (ttopic : TportTopic) (hdr : TportHeader) (payload : Bytes) : Receive := fun topics =>
  match received ttopic hdr payload with
  | (none, ttopic) => .ok (Topics.update topics ttopic, [])
  | (some buffer, ttopic) => do
      let (ttopic, sent) ← ttopic.dispatchMessage buffer
      return (Topics.update topics ttopic, [sent])

/-- Look the topic up, and give the message at `offset` to its node. -/
def messageAt (buf : Bytes) (offset : Nat) (hdr : TportHeader) : Receive := fun topics => do
  match ← findTopic topics buf offset with
  | none => return (topics, [])
  | some ttopic => do
      let payload ← inside
        (slice buf (offset + TportHeader.size + hdr.mTopicSize.toNat) hdr.mSize.toNat)
      message ttopic hdr payload topics

/-- The path of `sbfHandler_packet` for a packet with one message. -/
def single (buf : Bytes) (hdr : TportHeader) : Receive := fun topics => do
  if !(← checkHeader buf 0 buf.length) then return (topics, [])
  messageAt buf 0 hdr topics

/-- The loop of `sbfHandler_packet` over the messages of a packet; `size` counts
the bytes from `offset` to the end. -/
def loop : Nat → Bytes → Nat → Nat → Receive
  | 0, _, _, _ => fun _ => .error .endless
  | fuel + 1, buf, offset, size => fun topics => do
      if !(← checkHeader buf offset size) then return (topics, [])
      let hdr ← header buf offset
      if hdr.isLastInPacket then messageAt buf offset hdr topics
      else
        (messageAt buf offset hdr).andThen
          (loop fuel buf (offset + used hdr) (size - used hdr)) topics

/-- `sbfHandler_packet` -/
def packet (buf : Bytes) : Receive := fun topics => do
  let hdr ← header buf 0
  if hdr.isLastInPacket then single buf hdr topics
  else loop (buf.length + 1) buf 0 buf.length topics

/-- Apart from the buffers they hand on, the path for one message is the loop's
first round. -/
theorem packet_eq_loop (buf : Bytes) (hdr : TportHeader) (first : header buf 0 = .ok hdr) :
    packet buf = loop (buf.length + 1) buf 0 buf.length := by
  funext topics
  simp only [packet, first, bind, Except.bind]
  split
  · rename_i last
    simp only [single, loop, first, last, ↓reduceIte, bind, Except.bind]
  · rfl

/-- A stream's packets, one after the other. -/
def packets (bufs : List Bytes) : Receive := Step.all (bufs.map packet)

end Sbf.Handler
