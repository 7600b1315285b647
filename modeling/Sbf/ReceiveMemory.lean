import Sbf.HandlerBuffers
import Sbf.RefMemory

set_option autoImplicit false

/-! The receive path of one stream with the memory of its buffers and subscriptions, up to
the removal of the stream. The transport itself stays; what the user does, what the event
thread does and what the dispatches of the user's queues do can come in any order. -/

namespace Sbf

open Octets

/-- The values of `mDestroyCb` on the receive path, with their closures. -/
inductive BufferDestroyCb where
  | null
  | handlerBuffer (closure : Nat)
  | fragmentBuffer
  deriving DecidableEq, Repr

/-- The fields of `struct sbfBufferImpl` on the receive path; the count is beside it. -/
structure ReceivedBuffer where
  mData : Bytes
  mDestroyCb : BufferDestroyCb
  mLocked : Bool
  deriving DecidableEq, Repr

/-- The fields of `struct sbfSubImpl` that receiving uses; the count is beside it, and
`mReadyCb` is only whether there is one. -/
structure ReceivingSub extends Sub where
  mTopic : CString
  mQueue : Nat
  mReady : Bool
  mRemoved : Bool
  mReadyCb : Bool
  mTportTopic : Option Nat

/-- An item on a user queue: `sbfSubMessageQueueCb` with its buffer, or
`sbfSubReadyQueueCb`. -/
structure SubItem where
  mQueue : Nat
  closure : SubId
  mData : Option Nat
  deriving DecidableEq, Repr

/-- The events of subscriptions on the stream's thread. -/
inductive SubEvent where
  | add (sub : SubId)
  | remove (sub : SubId)
  deriving DecidableEq, Repr

/-- A run of `sbfHandlerDispatchMessage`: the buffer, whether `sbfHandler_packet` destroys
it afterwards, and the subscriptions that the loop still comes to. -/
structure ServingSubs where
  buffer : Nat
  mine : Bool
  left : List SubId
  deriving DecidableEq, Repr

/-- What an application sees, in order: a callback starts, or `sbfSub_destroy` has
returned. -/
inductive Report where
  | message (sub : SubId) (buffer : Nat)
  | ready (sub : SubId)
  | destroyed (sub : SubId)
  deriving DecidableEq, Repr

/-- The handlers that packets come from. -/
inductive PacketReader where
  | tcpMesh
  | udp
  deriving DecidableEq, Repr

/-- A stream's receiving side. `pubRefs` is how many of the references to the stream are
those of publishers, on nodes of their own: no subscription of this stream has a topic that a
publisher on it has. A stream that is `gone` is freed. `callers` are the packets that their
reader has not destroyed, `packet` is the one in `sbfHandler_packet`, and `handed` are its
messages that are still to come. `running` are the items whose callback has started, and
`reports` is history. -/
structure Receiving where
  reader : PacketReader
  mRefCount : Nat
  pubRefs : Nat
  gone : Bool
  mTopics : List TportTopic
  mReady : Bool
  fresh : Nat
  subs : RefMemory ReceivingSub
  buffers : RefMemory ReceivedBuffer
  events : List SubEvent
  callers : List Nat
  packet : Nat
  handed : List Handler.Handed
  dispatching : Option ServingSubs
  items : List SubItem
  running : List SubItem
  reports : List Report

namespace Receiving

def new (reader : PacketReader) : Receiving where
  reader := reader
  mRefCount := 0
  pubRefs := 0
  gone := false
  mTopics := []
  mReady := false
  fresh := 0
  subs := .empty
  buffers := .empty
  events := []
  callers := []
  packet := 0
  handed := []
  dispatching := none
  items := []
  running := []
  reports := []

/-- What is asked of an object must not come too late. -/
def alive {α : Type} : Option α → Except Fault α
  | none => .error .freed
  | some result => .ok result

/-- `sbfBuffer_destroy`. A buffer whose count is zero is out of reach, so it is gone before
its `mDestroyCb` runs; `sbfHandlerBufferDestroyCb` destroys its closure in turn. A buffer
that was read into goes back to its reader's pool, and `sbfPool_put` needs that pool; what
is wrapped is from the default pool, which stays. -/
def destroyBuffer (pool : Bool) : Nat → Nat → RefMemory ReceivedBuffer →
    Except Fault (RefMemory ReceivedBuffer)
  | 0, _, _ => .error .endless
  | fuel + 1, id, memory => do
      let (memory, last) ← alive (memory.drop id)
      match last with
      | some ⟨_, .handlerBuffer closure, _⟩ => destroyBuffer pool fuel closure memory
      | some ⟨_, .null, _⟩ => if pool then return memory else throw .freed
      | _ => return memory

/-- The pool that packets are read into: the UDP handler has one for each stream, the TCP
mesh handler one for all of them. -/
def hasPool (state : Receiving) : Bool :=
  match state.reader with
  | .tcpMesh => true
  | .udp => !state.gone

/-- `sbfBuffer_destroy`; a closure is older than what wraps it. -/
def destroy (id : Nat) (state : Receiving) : Except Fault Receiving := do
  let buffers ← destroyBuffer state.hasPool (id + 1) id state.buffers
  return { state with buffers := buffers }

/-- Drop a reference to a subscription, and free it with the last one. -/
def release (id : SubId) (state : Receiving) : Except Fault Receiving := do
  let (subs, _) ← alive (state.subs.drop id)
  return { state with subs := subs }

/-- Change fields of a subscription. -/
def setSub (f : ReceivingSub → ReceivingSub) (id : SubId) (state : Receiving) :
    Except Fault Receiving := do
  let subs ← alive (state.subs.modify f id)
  return { state with subs := subs }

/-- Change fields of a buffer. -/
def setBuffer (f : ReceivedBuffer → ReceivedBuffer) (id : Nat) (state : Receiving) :
    Except Fault Receiving := do
  let buffers ← alive (state.buffers.modify f id)
  return { state with buffers := buffers }

/-- `sbfQueue_enqueueItem`, with the item's own reference to the subscription. -/
def enqueueItem (item : SubItem) (state : Receiving) : Except Fault Receiving := do
  let subs ← alive (state.subs.addRef item.closure)
  return { state with subs := subs, items := state.items ++ [item] }

/-- `sbfSub_ready` -/
def readySub (id : SubId) (state : Receiving) : Except Fault Receiving := do
  let sub ← alive (state.subs.find id)
  let state ← state.setSub (fun sub => { sub with mReady := true }) id
  if !sub.mDestroyed && sub.mReadyCb then state.enqueueItem ⟨sub.mQueue, id, none⟩
  else return state

/-- A call that looks for the stream after it has gone: the UDP handler makes another one,
the TCP mesh handler still finds the one that is freed. -/
def late (state : Receiving) : Except Fault Receiving :=
  match state.reader with
  | .tcpMesh => .error .freed
  | .udp => .ok state

/-- `sbfSub_create`, with the add event queued on the stream's thread, and a reference to the
stream until that comes. -/
def create (topic : CString) (mQueue : Nat) (mReadyCb mMessageCb : Bool) (state : Receiving) :
    Except Fault Receiving :=
  if state.gone then state.late
  else .ok { state with
    mRefCount := state.mRefCount + 1
    subs := state.subs.obtain ⟨⟨false, mMessageCb, false⟩, topic, mQueue, false, false, mReadyCb, none⟩
    events := state.events ++ [.add state.subs.fresh] }

/-- A publisher takes a reference to the stream. Under the UDP handler it has another stream. -/
def addPub (state : Receiving) : Except Fault Receiving :=
  match state.reader with
  | .tcpMesh =>
      if state.gone then state.late
      else .ok { state with mRefCount := state.mRefCount + 1, pubRefs := state.pubRefs + 1 }
  | .udp => .ok state

/-- `sbfSub_destroy`. It is not called any more when the subscription is freed. -/
def destroySub (id : SubId) (state : Receiving) : Except Fault Receiving :=
  match state.subs.find id with
  | none => .ok state
  | some sub =>
      if sub.mDestroyed then .ok state
      else do
        let state ← state.setSub (fun sub => { sub with mDestroyed := true }) id
        return { state with
          events := state.events ++ [.remove id]
          reports := state.reports ++ [.destroyed id] }

/-- `sbfSub_setQueueBypass` -/
def setQueueBypass (id : SubId) (set : Bool) (state : Receiving) : Except Fault Receiving :=
  match state.subs.find id with
  | none => .ok state
  | some _ => state.setSub (fun sub => { sub with mQueueBypass := set }) id

/-- The node of a topic, made if there is none, and the nodes with it. -/
def ensureTopic (topic : CString) (state : Receiving) : TportTopic × List TportTopic :=
  match Topics.find state.mTopics topic.chars with
  | some ttopic => (ttopic, state.mTopics)
  | none =>
      (.new state.fresh topic, TportStream.insertTopic state.mTopics (.new state.fresh topic))

/-- The references to the stream with the node of a topic: `sbfTport_addTopic` takes one. -/
def nodeRefs (topic : CString) (state : Receiving) : Nat :=
  match Topics.find state.mTopics topic.chars with
  | some _ => state.mRefCount
  | none => state.mRefCount + 1

/-- Put a subscription on its node; its own reference to the stream goes. -/
def attach (id : SubId) (topic : CString) (state : Receiving) : Except Fault Receiving :=
  let made := state.ensureTopic topic
  { state with
    mRefCount := state.nodeRefs topic - 1
    mTopics := Topics.update made.2 (made.1.insertTail id .sub)
    fresh := state.fresh + 1 }.setSub (fun sub => { sub with mTportTopic := some made.1.address }) id

/-- `sbfSubAddEventCb` -/
def addEventCb (id : SubId) (state : Receiving) : Except Fault Receiving := do
  let sub ← alive (state.subs.find id)
  if state.gone then throw .freed
  else
    let state ← state.attach id sub.mTopic
    if state.mReady then state.readySub id else return state

/-- `sbfTport_removeTopic`, with what it asserts. -/
def removeTopic (address : Nat) (state : Receiving) : Except Fault (Bool × Receiving) :=
  let mTopics := state.mTopics.filter (·.address ≠ address)
  let mRefCount := state.mRefCount - 1
  if mRefCount = 0 ∧ mTopics ≠ [] then .error .assertion
  else .ok (mRefCount = 0, { state with mRefCount := mRefCount, mTopics := mTopics })

/-- `sbfTport_removeStream`, which frees the stream. Under the UDP handler `mRemoveStream`
destroys the socket with its pool; that of the TCP mesh handler is empty. -/
def removeStream (state : Receiving) : Receiving := { state with gone := true }

/-- Take a subscription off its node; the node goes with its last subscription, and the
stream with its last reference. -/
def detach (id : SubId) (ttopic : TportTopic) (state : Receiving) : Except Fault Receiving :=
  let left := ttopic.unlink id .sub
  if left.mSubs = [] then do
    let (empty, state) ← state.removeTopic ttopic.address
    -- The count is read again under the lock.
    if empty ∧ state.mRefCount = 0 then return state.removeStream else return state
  else .ok { state with mTopics := Topics.update state.mTopics left }

/-- `sbfSubRemoveEventCb` -/
def removeEventCb (id : SubId) (state : Receiving) : Except Fault Receiving := do
  let sub ← alive (state.subs.find id)
  if !sub.mReady then state.setSub (fun sub => { sub with mRemoved := true }) id
  else if state.gone then throw .freed
  else
    let address ← notNull sub.mTportTopic
    let ttopic ← alive (state.mTopics.find? (·.address = address))
    if id ∉ ttopic.mSubs then throw .unlinked
    else
      let state ← state.detach id ttopic
      state.release id

/-- `sbfSub_message` -/
def message (id : SubId) (buffer : Nat) (state : Receiving) : Except Fault Receiving := do
  let sub ← alive (state.subs.find id)
  let data ← alive (state.buffers.find buffer)
  match sub.toSub.message data.mData with
  | none => return state
  | some (.called _) => return { state with reports := state.reports ++ [.message id buffer] }
  | some (.queued _) =>
      let buffers ← alive (state.buffers.addRef buffer)
      { state with buffers := buffers }.enqueueItem ⟨sub.mQueue, id, some buffer⟩

/-- A run of `sbfHandlerDispatchMessage` starts: the buffer is locked. -/
def startDispatch (buffer : Nat) (mine : Bool) (sent : Dispatch) (state : Receiving) :
    Except Fault Receiving := do
  let state ← state.setBuffer (fun data => { data with mLocked := true }) buffer
  return { state with dispatching := some ⟨buffer, mine, sent.served⟩ }

/-- `sbfBuffer_setData` and `sbfBuffer_setSize`, which end the process on a locked buffer. -/
def setData (payload : Bytes) (buffer : Nat) (state : Receiving) : Except Fault Receiving := do
  let data ← alive (state.buffers.find buffer)
  if data.mLocked then throw .assertion
  else state.setBuffer (fun data => { data with mData := payload }) buffer

/-- The buffer of a message is made, and its dispatch starts. -/
def handOn (handed : Handler.Handed) (state : Receiving) : Except Fault Receiving :=
  match handed.source with
  | .packet => do
      let state ← state.setData handed.sent.payload state.packet
      state.startDispatch state.packet false handed.sent
  | .wrapped => do
      let buffers ← alive (state.buffers.addRef state.packet)
      { state with
        buffers := buffers.obtain ⟨handed.sent.payload, .handlerBuffer state.packet, false⟩ }.startDispatch
          buffers.fresh true handed.sent
  | .assembled =>
      { state with
        buffers := state.buffers.obtain ⟨handed.sent.payload, .fragmentBuffer, false⟩ }.startDispatch
          state.buffers.fresh true handed.sent

/-- `sbfHandler_packet` is not running. -/
def Idle (state : Receiving) : Prop := state.dispatching = none ∧ state.handed = []

instance (state : Receiving) : Decidable state.Idle := inferInstanceAs (Decidable (_ ∧ _))

/-- A publisher's reference to the stream goes, on the event thread, and the stream with the
last one. -/
def removePub (state : Receiving) : Except Fault Receiving :=
  if state.Idle ∧ state.pubRefs ≠ 0 then
    let state := { state with
      mRefCount := state.mRefCount - 1, pubRefs := state.pubRefs - 1 }
    if state.mRefCount = 0 then
      if state.mTopics ≠ [] then .error .assertion else .ok state.removeStream
    else .ok state
  else .ok state

/-- A packet is read into a new buffer and given to `sbfHandler_packet`. When the stream has
gone, the UDP handler's socket is closed and nothing comes; the TCP mesh handler still has
the stream for its `mHandle`. -/
def receive (bytes : Bytes) (state : Receiving) : Except Fault Receiving :=
  if state.Idle then if state.gone then state.late else do
    let (mTopics, handed) ← Handler.handPacket bytes state.mTopics
    return { state with
      mTopics := mTopics
      buffers := state.buffers.obtain ⟨bytes, .null, false⟩
      callers := state.callers ++ [state.buffers.fresh]
      packet := state.buffers.fresh
      handed := handed }
  else .ok state

/-- The next step of `sbfHandler_packet`. -/
def advance (state : Receiving) : Except Fault Receiving :=
  match state.dispatching with
  | some ⟨buffer, mine, sub :: left⟩ =>
      { state with dispatching := some ⟨buffer, mine, left⟩ }.message sub buffer
  | some ⟨buffer, mine, []⟩ =>
      let state := { state with dispatching := none }
      if mine then state.destroy buffer else .ok state
  | none =>
      match state.handed with
      | [] => .ok state
      | first :: rest => { state with handed := rest }.handOn first

/-- The reader of a packet destroys it, after `sbfHandler_packet` has returned. -/
def drop (id : Nat) (state : Receiving) : Except Fault Receiving :=
  if state.Idle ∧ id ∈ state.callers then
    { state with callers := state.callers.erase id }.destroy id
  else .ok state

/-- The event thread takes its next event. -/
def event (state : Receiving) : Except Fault Receiving :=
  if state.Idle then
    match state.events with
    | [] => .ok state
    | .add id :: rest => { state with events := rest }.addEventCb id
    | .remove id :: rest => { state with events := rest }.removeEventCb id
  else .ok state

/-- The completion of the stream sets its `mReady`. -/
def complete (state : Receiving) : Receiving :=
  if state.Idle ∧ state.gone = false then { state with mReady := true } else state

/-- The completion comes to a subscription on a node. -/
def completeSub (id : SubId) (state : Receiving) : Except Fault Receiving :=
  if state.Idle ∧ state.mReady = true ∧ Topics.Serves state.mTopics id then do
    let state ← state.readySub id
    let sub ← alive (state.subs.find id)
    if sub.mRemoved then state.removeEventCb id else return state
  else .ok state

/-- The callback of an item starts: of the user's, unless the subscription is destroyed. -/
def startItem (item : SubItem) (state : Receiving) : Except Fault Receiving := do
  let sub ← alive (state.subs.find item.closure)
  let report ←
    match item.mData with
    | none => pure (.ready item.closure)
    | some buffer => do
        let _ ← alive (state.buffers.find buffer)
        pure (.message item.closure buffer)
  return { state with
    items := state.items.erase item
    running := state.running ++ [item]
    reports := if sub.mDestroyed then state.reports else state.reports ++ [report] }

/-- A user queue dispatches its first item: `sbfSubMessageQueueCb` or
`sbfSubReadyQueueCb`, up to the user's callback. -/
def dispatch (mQueue : Nat) (state : Receiving) : Except Fault Receiving :=
  match state.items.find? (·.mQueue = mQueue) with
  | none => .ok state
  | some item => state.startItem item

/-- The user's callback has returned: the item's references are dropped. -/
def finish (item : SubItem) (state : Receiving) : Except Fault Receiving :=
  if item ∈ state.running then do
    let state := { state with running := state.running.erase item }
    let state ← item.mData.elim (.ok state) (state.destroy ·)
    state.release item.closure
  else .ok state

inductive Action where
  | create (topic : CString) (mQueue : Nat) (mReadyCb mMessageCb : Bool)
  | destroySub (sub : SubId)
  | setQueueBypass (sub : SubId) (set : Bool)
  | addPub
  | removePub
  | receive (bytes : Bytes)
  | advance
  | drop (buffer : Nat)
  | event
  | complete
  | completeSub (sub : SubId)
  | dispatch (mQueue : Nat)
  | finish (item : SubItem)

def step : Action → Receiving → Except Fault Receiving
  | .create topic mQueue mReadyCb mMessageCb => create topic mQueue mReadyCb mMessageCb
  | .destroySub sub => destroySub sub
  | .setQueueBypass sub set => setQueueBypass sub set
  | .addPub => addPub
  | .removePub => removePub
  | .receive bytes => receive bytes
  | .advance => advance
  | .drop buffer => drop buffer
  | .event => event
  | .complete => fun state => .ok state.complete
  | .completeSub sub => completeSub sub
  | .dispatch mQueue => dispatch mQueue
  | .finish item => finish item

def run : List Action → Receiving → Except Fault Receiving
  | [], state => .ok state
  | action :: rest, state => step action state >>= run rest

end Receiving

end Sbf
