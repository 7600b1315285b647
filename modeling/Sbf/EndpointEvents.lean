import Sbf.StepSequences
import Sbf.TportStreams

set_option autoImplicit false

/-! What publishers and subscriptions do on a transport: the calls of the user and
the callbacks on the event threads. The two kinds share their code up to the list of
the node that they are on, `mNext` and the weight of a subscription. -/

namespace Sbf.Tport

open Octets

variable {H S : Type}

/-- `sbfPub_ready` and `sbfSub_ready` -/
def ready (id : EndpointId) (tport : Tport H S) : Except Fault (Tport H S) := do
  let endpoint ← tport.endpoints.read id
  let endpoint := { endpoint with mReady := true }
  if !endpoint.mDestroyed && endpoint.mReadyCb then
    return { tport with
      endpoints := tport.endpoints.set id { endpoint with mRefCount := endpoint.mRefCount + 1 }
      items := tport.items ++ [id] }
  else return { tport with endpoints := tport.endpoints.set id endpoint }

/-- Drop a reference to an endpoint, and free it with the last one. -/
def release (id : EndpointId) (tport : Tport H S) : Except Fault (Tport H S) := do
  let endpoint ← tport.endpoints.read id
  let mRefCount := endpoint.mRefCount - 1
  if mRefCount = 0 then return { tport with endpoints := tport.endpoints.erase id }
  else return { tport with
    endpoints := tport.endpoints.set id { endpoint with mRefCount := mRefCount } }

/-- Remove the node of a topic, and its stream if that was the last reference. -/
def removeTopic (config : TportConfig H S) (id : StreamId) (address : Nat) (tport : Tport H S) :
    Except Fault (Tport H S) := do
  let tstream ← tport.streams.read id
  let (empty, tstream) ← tstream.removeTopic address
  let tport := { tport with streams := tport.streams.set id tstream }
  -- The count is read again under the lock.
  if empty ∧ tstream.mRefCount = 0 then tport.removeStream config id
  else return tport

/-- Take an endpoint off the list of its node; a subscription takes its weight along. -/
def detach (type : TopicType) (id : EndpointId) (endpoint : Endpoint) (stream : StreamId)
    (tstream : TportStream S) (ttopic : TportTopic) (tport : Tport H S) : Tport H S :=
  let tport := { tport.log (.removing id) with
    streams := tport.streams.set stream
      { tstream with mTopics := Topics.update tstream.mTopics (ttopic.unlink id type) } }
  match type with
  | .pub => tport
  | .sub => tport.adjustWeight tstream.mThread (-endpoint.mWeight)

/-- Remove a node when a list of it has become empty; the other is not looked at. -/
def leaveTopic (config : TportConfig H S) (stream : StreamId) (address : Nat)
    (left : List EndpointId) (tport : Tport H S) : Except Fault (Tport H S) :=
  if left = [] then tport.removeTopic config stream address else .ok tport

/-- `sbfPubRemoveEventCb` and `sbfSubRemoveEventCb` from the removal on: the endpoint
leaves the list of its node, and the node goes with the last one of its kind. -/
def remove (config : TportConfig H S) (type : TopicType) (id : EndpointId) (endpoint : Endpoint)
    (tport : Tport H S) : Except Fault (Tport H S) := do
  let stream ← notNull endpoint.mTportStream
  let tstream ← tport.streams.read stream
  let address ← notNull endpoint.mTportTopic
  let ttopic ← tstream.topicAt address
  if id ∉ ttopic.attached type then throw .unlinked
  else
    let left := (ttopic.unlink id type).attached type
    let tport ← (tport.detach type id endpoint stream tstream ttopic).leaveTopic config stream
      address left
    tport.release id

/-- The remove event of an endpoint; one that is not ready is only marked. -/
def removeEventCb (config : TportConfig H S) (type : TopicType) (id : EndpointId)
    (tport : Tport H S) : Except Fault (Tport H S) := do
  let endpoint ← tport.endpoints.read id
  if !endpoint.mReady then
    return { tport with endpoints := tport.endpoints.set id { endpoint with mRemoved := true } }
  else tport.remove config type id endpoint

/-- Put an endpoint on the list of its topic's node, which is made if there is none;
its reference to the stream becomes the node's. -/
def attach (type : TopicType) (id : EndpointId) (endpoint : Endpoint) (stream : StreamId)
    (tstream : TportStream S) (tport : Tport H S) : Tport H S :=
  let made := tstream.ensureTopic tport.fresh endpoint.mTopic.mTopic
  { tport.log (.adding id) with
    streams := tport.streams.set stream
      { made.2 with
        mTopics := Topics.update made.2.mTopics (made.1.insertTail id type)
        mRefCount := made.2.mRefCount - 1 }
    endpoints := tport.endpoints.set id { endpoint with mTportTopic := some made.1.address }
    fresh := tport.fresh + 1 }

/-- The add event of an endpoint. -/
def addEventCb (type : TopicType) (id : EndpointId) (tport : Tport H S) :
    Except Fault (Tport H S) := do
  let endpoint ← tport.endpoints.read id
  let stream ← notNull endpoint.mTportStream
  let tstream ← tport.streams.read stream
  let tport := tport.attach type id endpoint stream tstream
  if tstream.mReady then tport.ready id else return tport

/-- A loop along links: when the body is done with an element, the link that leads on
is read from it, which must still be there. -/
def follow (alive : Nat → Tport H S → Bool) (body : Nat → Tport H S → Except Fault (Tport H S)) :
    List Nat → Tport H S → Except Fault (Tport H S)
  | [], tport => .ok tport
  | element :: rest, tport => do
      let tport ← body element tport
      if alive element tport then follow alive body rest tport else throw .freed

/-- A node of a stream, through the pointers to both. -/
def topicAt (tport : Tport H S) (stream : StreamId) (address : Nat) : Except Fault TportTopic :=
  tport.streams.read stream >>= (·.topicAt address)

/-- What a completed stream does to an endpoint on it. -/
def completeEndpoint (config : TportConfig H S) (type : TopicType) (id : EndpointId)
    (tport : Tport H S) : Except Fault (Tport H S) := do
  let tport ← tport.ready id
  let endpoint ← tport.endpoints.read id
  if endpoint.mRemoved then tport.removeEventCb config type id else return tport

/-- What a completed stream does to the endpoints on a node. -/
def completeTopic (config : TportConfig H S) (type : TopicType) (stream : StreamId)
    (address : Nat) (tport : Tport H S) : Except Fault (Tport H S) := do
  let ttopic ← tport.topicAt stream address
  tport.follow (fun id tport => (tport.endpoints.find id).isSome) (completeEndpoint config type)
    (ttopic.attached type)

/-- The creator of a stream has no add event of its own. -/
def completeCreator (config : TportConfig H S) (type : TopicType) (id : EndpointId)
    (tport : Tport H S) : Except Fault (Tport H S) := do
  let tport ← tport.addEventCb type id
  let endpoint ← tport.endpoints.read id
  if endpoint.mRemoved then tport.removeEventCb config type id else return tport

/-- The completion of a stream, for the endpoint that created it. -/
def addStreamCompleteCb (config : TportConfig H S) (type : TopicType) (id : EndpointId)
    (error : Bool) (tport : Tport H S) : Except Fault (Tport H S) := do
  let endpoint ← tport.endpoints.read id
  let stream ← notNull endpoint.mTportStream
  let tstream ← tport.streams.read stream
  if error then return tport
  else
    let tport := { tport with streams := tport.streams.set stream { tstream with mReady := true } }
    let tport ← tport.follow (fun address tport => (tport.topicAt stream address).isOk)
      (completeTopic config type stream) (tstream.mTopics.map (·.address))
    tport.completeCreator config type id

/-- The stream for a topic: one that the handler finds, with the add event queued on
its thread, or a new one. -/
def findStream (config : TportConfig H S) (type : TopicType) (topic : Topic) (id : EndpointId)
    (tport : Tport H S) : Except Fault (StreamId × Tport H S) :=
  match config.mHandlerTable.mFindStream tport.mHandler topic with
  | some stream => do
      let tstream ← tport.streams.read stream
      return (stream, tport.enqueueThread tstream.mThread [.add type id])
  | none => tport.addStream config type topic id

/-- The stream that an endpoint is given is one in the handler, and its add event is
queued, or a new one, whose completion is queued in place of the add event. -/
theorem findStream_cases {config : TportConfig H S} {type : TopicType} {topic : Topic}
    {id : EndpointId} {stream : StreamId} {before after : Tport H S}
    (ran : before.findStream config type topic id = .ok (stream, after)) :
    (∃ tstream, before.streams.find stream = some tstream ∧
      after = before.enqueueThread tstream.mThread [.add type id]) ∨
    ∃ thread mHandler mStream, stream = before.fresh ∧
      after = { before.enqueueThread thread [.complete type id] with
        mHandler := mHandler
        mStreams := before.mStreams ++ [before.fresh]
        streams := before.streams.set before.fresh ⟨thread, mStream, 0, false, []⟩
        fresh := before.fresh + 1 } := by
  unfold findStream at ran
  split at ran
  · obtain ⟨tstream, read, ran⟩ := bind_ok ran
    cases ran
    exact .inl ⟨tstream, Heap.find_of_read read, rfl⟩
  · obtain ⟨thread, _, ran⟩ := bind_ok ran
    obtain ⟨⟨mHandler, mStream, events⟩, added, ran⟩ := bind_ok ran
    obtain rfl := config.mHandlerTable.completes added
    cases ran
    exact .inr ⟨thread, mHandler, mStream, rfl, rfl⟩

/-- Store the stream of an endpoint, with a reference for the time until it is added. -/
def hold (type : TopicType) (id : EndpointId) (endpoint : Endpoint) (stream : StreamId)
    (tstream : TportStream S) (tport : Tport H S) : Tport H S :=
  let tport := { tport with
    endpoints := tport.endpoints.set id { endpoint with mTportStream := some stream }
    streams := tport.streams.set stream { tstream with mRefCount := tstream.mRefCount + 1 } }
  match type with
  | .pub => tport
  | .sub => tport.adjustWeight tstream.mThread endpoint.mWeight

/-- `sbfPubSetStream` and `sbfSubSetStream` -/
def setStream (config : TportConfig H S) (type : TopicType) (id : EndpointId)
    (tport : Tport H S) : Except Fault (Tport H S) := do
  let endpoint ← tport.endpoints.read id
  let (stream, tport) ← tport.findStream config type endpoint.mTopic id
  let tstream ← tport.streams.read stream
  return tport.hold type id endpoint stream tstream

/-- Make an endpoint, unless its topic is too long. -/
def create (config : TportConfig H S) (type : TopicType) (topic0 : CString) (mReadyCb : Bool)
    (tport : Tport H S) : Except Fault (Tport H S) :=
  match Topic.create type topic0 with
  | none => .ok tport
  | some topic =>
      let mWeight :=
        match type with
        | .pub => 0
        | .sub => config.topicWeight topic
      let endpoint : Endpoint := ⟨topic, mWeight, false, false, 1, false, none, none, mReadyCb⟩
      { tport with
        endpoints := tport.endpoints.set tport.fresh endpoint
        fresh := tport.fresh + 1 }.setStream config type tport.fresh

/-- Queue the remove event of an endpoint, once. -/
def destroy (type : TopicType) (id : EndpointId) (tport : Tport H S) :
    Except Fault (Tport H S) := do
  let endpoint ← tport.endpoints.read id
  if endpoint.mDestroyed then return tport
  else
    let stream ← notNull endpoint.mTportStream
    let tstream ← tport.streams.read stream
    return { tport with
      endpoints := tport.endpoints.set id { endpoint with mDestroyed := true } }.enqueueThread
        tstream.mThread [.remove type id]

/-- A queued ready callback: the user's is called unless the endpoint is destroyed. -/
def readyQueueCb (id : EndpointId) : Step Fault (Tport H S) EndpointId := fun tport => do
  let endpoint ← tport.endpoints.read id
  let tport ← tport.release id
  return (tport, if endpoint.mDestroyed then [] else [id])

section Names

variable (config : TportConfig H S)

def sbfPubRemoveEventCb : EndpointId → Tport H S → Except Fault (Tport H S) :=
  removeEventCb config .pub

def sbfSubRemoveEventCb : EndpointId → Tport H S → Except Fault (Tport H S) :=
  removeEventCb config .sub

def sbfPubAddEventCb : EndpointId → Tport H S → Except Fault (Tport H S) := addEventCb .pub

def sbfSubAddEventCb : EndpointId → Tport H S → Except Fault (Tport H S) := addEventCb .sub

def sbfPubAddStreamCompleteCb : EndpointId → Bool → Tport H S → Except Fault (Tport H S) :=
  addStreamCompleteCb config .pub

def sbfSubAddStreamCompleteCb : EndpointId → Bool → Tport H S → Except Fault (Tport H S) :=
  addStreamCompleteCb config .sub

def sbfPub_create : CString → Bool → Tport H S → Except Fault (Tport H S) := create config .pub

def sbfSub_create : CString → Bool → Tport H S → Except Fault (Tport H S) := create config .sub

def sbfPub_destroy : EndpointId → Tport H S → Except Fault (Tport H S) := destroy .pub

def sbfSub_destroy : EndpointId → Tport H S → Except Fault (Tport H S) := destroy .sub

end Names

/-- An event's callback, on its thread. -/
def callback (config : TportConfig H S) (failed : Bool) : Event → Tport H S →
    Except Fault (Tport H S)
  | .add .pub id => sbfPubAddEventCb id
  | .add .sub id => sbfSubAddEventCb id
  | .remove .pub id => sbfPubRemoveEventCb config id
  | .remove .sub id => sbfSubRemoveEventCb config id
  | .complete .pub id =>
      sbfPubAddStreamCompleteCb config id (config.mHandlerTable.mAddComplete failed)
  | .complete .sub id =>
      sbfSubAddStreamCompleteCb config id (config.mHandlerTable.mAddComplete failed)

/-- What can happen next: a call of the user's, the next event of a thread (whose
socket may fail, if it makes one), or a ready callback on a user queue. -/
inductive Call where
  | createPub (topic0 : CString) (mReadyCb : Bool)
  | createSub (topic0 : CString) (mReadyCb : Bool)
  | destroyPub (id : EndpointId)
  | destroySub (id : EndpointId)
  | event (thread : Nat) (failed : Bool)
  | dispatch (id : EndpointId)
  deriving DecidableEq

/-- One step emits the endpoints whose ready callback the user gets. -/
def step (config : TportConfig H S) : Call → Step Fault (Tport H S) EndpointId
  | .createPub topic0 mReadyCb => fun tport =>
      (tport.sbfPub_create config topic0 mReadyCb).map (·, [])
  | .createSub topic0 mReadyCb => fun tport =>
      (tport.sbfSub_create config topic0 mReadyCb).map (·, [])
  | .destroyPub id => fun tport => (tport.sbfPub_destroy id).map (·, [])
  | .destroySub id => fun tport => (tport.sbfSub_destroy id).map (·, [])
  | .event thread failed => fun tport =>
      match tport.queues thread with
      | [] => .ok (tport, [])
      | event :: rest =>
          (callback config failed event { tport with
            queues := fun other => if other = thread then rest else tport.queues other }).map
              (·, [])
  | .dispatch id => fun tport =>
      if id ∈ tport.items then readyQueueCb id { tport with items := tport.items.erase id }
      else .ok (tport, [])

def run (config : TportConfig H S) (calls : List Call) : Step Fault (Tport H S) EndpointId :=
  Step.all (calls.map (step config))

theorem ticks_plain : 0 ∉ ([116] : Bytes) := by decide

def ticks : CString := ⟨[116], ticks_plain⟩

end Sbf.Tport
