import Sbf.StepSequences
import Sbf.TportStreams

set_option autoImplicit false

/-! The reference counts of streams, with every access to a count as a step of its own.
A stream is for publishers or for subscriptions, and `mStream` says for which. -/

namespace Sbf

open Octets

/-- The fields of `struct sbfPubImpl` and `struct sbfSubImpl` that matter to the streams.
The last two are history: the add callback has dropped its reference to the stream, and
the remove callback has taken the endpoint off its node. -/
structure CountedEndpoint where
  mType : TopicType
  mTopic : CString
  mDestroyed : Bool
  mRemoved : Bool
  mReady : Bool
  mTportStream : Option StreamId
  mTportTopic : Option Nat
  added : Bool
  gone : Bool

/-- The endpoint has a stream, and its add callback has not dropped its reference. -/
def CountedEndpoint.waits (stream : StreamId) (endpoint : CountedEndpoint) : Bool :=
  endpoint.mTportStream = some stream && !endpoint.added

/-- What the user thread that holds `mStreamsLock` is about to do in `sbfPubSetStream` or
`sbfSubSetStream`. -/
inductive SetStream where
  | find (id : EndpointId)
  | enqueue (id : EndpointId) (stream : StreamId)
  | store (id : EndpointId) (stream : StreamId)
  | increment (id : EndpointId) (stream : StreamId)
  | unlock (id : EndpointId)
  deriving DecidableEq, Repr

/-- Whose stream is being set. -/
def SetStream.endpoint : SetStream → EndpointId
  | find id | enqueue id _ | store id _ | increment id _ | unlock id => id

/-- What an event thread still has to do: the three callbacks from their start, and what is
left of those that have started. -/
inductive ThreadStep where
  /-- the add callback, up to the reference that it drops -/
  | add (id : EndpointId)
  | unhold (id : EndpointId)
  | remove (id : EndpointId)
  /-- `sbfTport_removeStream`, under the lock -/
  | removeStream (stream : StreamId)
  | complete (handle : StreamId) (id : EndpointId) (error : Bool)
  /-- the completion's loop comes to an endpoint -/
  | settle (id : EndpointId)
  /-- the completion's last look at the endpoint that created the stream -/
  | finish (id : EndpointId)
  deriving DecidableEq, Repr

/-- A transport's streams. `setting` is the thread inside `SetStream`, `completing` are the
streams whose handler has not called `AddStreamComplete`, each with the endpoint that
created it, and `work` is what the event threads have to do, each in order. -/
structure StreamCounts where
  streams : Heap (TportStream TopicType)
  endpoints : Heap CountedEndpoint
  fresh : Nat
  setting : Option SetStream
  completing : List (StreamId × EndpointId)
  work : List (Nat × ThreadStep)

/-- What a stream had when it was freed: its topics, and the endpoints whose add callback
had not dropped its reference. -/
structure FreedStream where
  topics : Nat
  waiting : Nat
  deriving DecidableEq, Repr

namespace StreamCounts

def new : StreamCounts := ⟨.empty, .empty, 0, none, [], []⟩

def waiting (state : StreamCounts) (stream : StreamId) : Nat :=
  state.endpoints.count (fun _ endpoint => endpoint.waits stream)

/-- An endpoint is made, and `SetStream` takes the lock. -/
def create (mType : TopicType) (mTopic : CString) (state : StreamCounts) : StreamCounts :=
  if state.setting = none then
    { state with
      endpoints := state.endpoints.set state.fresh
        ⟨mType, mTopic, false, false, false, none, none, false, false⟩
      fresh := state.fresh + 1
      setting := some (.find state.fresh) }
  else state

/-- The handler's `mFindStream` returns a stream, which is taken to be one that is there and of the
right type: it is the handler's to forget a stream when `mRemoveStream` is called. -/
def found (stream : StreamId) (state : StreamCounts) : Except Fault StreamCounts :=
  match state.setting with
  | some (.find id) => do
      let endpoint ← state.endpoints.read id
      match state.streams.find stream with
      | none => return state
      | some tstream =>
          if tstream.mStream = endpoint.mType then
            return { state with setting := some (.enqueue id stream) }
          else return state
  | _ => .ok state

/-- `mFindStream` returns none, so `sbfTport_addStream` makes one. -/
def addStream (thread : Nat) (state : StreamCounts) : Except Fault StreamCounts :=
  match state.setting with
  | some (.find id) => do
      let endpoint ← state.endpoints.read id
      return { state with
        streams := state.streams.set state.fresh ⟨thread, endpoint.mType, 0, false, []⟩
        fresh := state.fresh + 1
        completing := state.completing ++ [(state.fresh, id)]
        setting := some (.store id state.fresh) }
  | _ => .ok state

/-- The next step of `SetStream` behind `mFindStream`. -/
def setStream (state : StreamCounts) : Except Fault StreamCounts :=
  match state.setting with
  | none | some (.find _) => .ok state
  | some (.enqueue id stream) => do
      let tstream ← state.streams.read stream
      return { state with
        work := state.work ++ [(tstream.mThread, .add id)]
        setting := some (.store id stream) }
  | some (.store id stream) => do
      let endpoint ← state.endpoints.read id
      return { state with
        endpoints := state.endpoints.set id { endpoint with mTportStream := some stream }
        setting := some (.increment id stream) }
  | some (.increment id stream) => do
      let tstream ← state.streams.read stream
      return { state with
        streams := state.streams.set stream { tstream with mRefCount := tstream.mRefCount + 1 }
        setting := some (.unlock id) }
  | some (.unlock _) => .ok { state with setting := none }

/-- The handler calls the `AddStreamComplete` callback, on the stream's thread. -/
def completed (stream : StreamId) (error : Bool) (state : StreamCounts) :
    Except Fault StreamCounts :=
  match state.completing.find? (·.1 = stream) with
  | none => .ok state
  | some (_, id) => do
      let tstream ← state.streams.read stream
      return { state with
        completing := state.completing.erase (stream, id)
        work := state.work ++ [(tstream.mThread, .complete stream id error)] }

/-- `sbfPub_destroy` and `sbfSub_destroy`, by a thread to which the endpoint was returned. -/
def destroy (id : EndpointId) (state : StreamCounts) : Except Fault StreamCounts :=
  match state.endpoints.find id with
  | none => .ok state
  | some endpoint =>
      if endpoint.mDestroyed = true ∨ state.setting.map (·.endpoint) = some id then .ok state
      else do
        let stream ← notNull endpoint.mTportStream
        let tstream ← state.streams.read stream
        return { state with
          endpoints := state.endpoints.set id { endpoint with mDestroyed := true }
          work := state.work ++ [(tstream.mThread, .remove id)] }

/-- The thread waits for the lock: `EnsureStream` takes it when there is no stream yet. -/
def Blocked (state : StreamCounts) : ThreadStep → Prop
  | .add id | .complete _ id _ =>
      state.setting ≠ none ∧ (state.endpoints.find id).bind (·.mTportStream) = none
  | .removeStream _ => state.setting ≠ none
  | _ => False

instance (state : StreamCounts) (step : ThreadStep) : Decidable (state.Blocked step) := by
  cases step <;> unfold Blocked <;> infer_instance

/-- The endpoint gets onto its topic's node, which is made with a reference if there is
none. -/
def attach (thread : Nat) (id : EndpointId) (state : StreamCounts) : Except Fault StreamCounts := do
  let endpoint ← state.endpoints.read id
  let stream ← notNull endpoint.mTportStream
  let tstream ← state.streams.read stream
  let made := tstream.ensureTopic state.fresh endpoint.mTopic
  return { state with
    streams := state.streams.set stream
      { made.2 with mTopics := Topics.update made.2.mTopics (made.1.insertTail id endpoint.mType) }
    endpoints := state.endpoints.set id { endpoint with mTportTopic := some made.1.address }
    fresh := state.fresh + 1
    work := (thread, .unhold id) :: state.work }

/-- The add callback drops the reference that `SetStream` takes. -/
def unhold (id : EndpointId) (state : StreamCounts) : Except Fault StreamCounts := do
  let endpoint ← state.endpoints.read id
  let stream ← notNull endpoint.mTportStream
  let tstream ← state.streams.read stream
  return { state with
    streams := state.streams.set stream { tstream with mRefCount := tstream.mRefCount - 1 }
    endpoints := state.endpoints.set id
      { endpoint with mReady := endpoint.mReady || tstream.mReady, added := true } }

/-- The remove callback from the removal on. -/
def detach (thread : Nat) (id : EndpointId) (endpoint : CountedEndpoint) (state : StreamCounts) :
    Except Fault StreamCounts := do
  let stream ← notNull endpoint.mTportStream
  let tstream ← state.streams.read stream
  let address ← notNull endpoint.mTportTopic
  let ttopic ← tstream.topicAt address
  if id ∉ ttopic.attached endpoint.mType then throw .unlinked
  else
    let left := ttopic.unlink id endpoint.mType
    let tstream := { tstream with mTopics := Topics.update tstream.mTopics left }
    let endpoints := state.endpoints.set id { endpoint with gone := true }
    if left.attached endpoint.mType = [] then do
      let (empty, tstream) ← tstream.removeTopic address
      return { state with
        streams := state.streams.set stream tstream
        endpoints := endpoints
        work := if empty then (thread, .removeStream stream) :: state.work else state.work }
    else
      return { state with
        streams := state.streams.set stream tstream
        endpoints := endpoints }

/-- `sbfPubRemoveEventCb` and `sbfSubRemoveEventCb` -/
def removeEventCb (thread : Nat) (id : EndpointId) (state : StreamCounts) :
    Except Fault StreamCounts := do
  let endpoint ← state.endpoints.read id
  if !endpoint.mReady then
    return { state with endpoints := state.endpoints.set id { endpoint with mRemoved := true } }
  else state.detach thread id endpoint

/-- The completion, up to its loop. The loop comes to the endpoints that are on the nodes
then; which links it follows from one to the next is another matter. -/
def complete (thread : Nat) (id : EndpointId) (error : Bool) (state : StreamCounts) :
    Except Fault StreamCounts := do
  let endpoint ← state.endpoints.read id
  let stream ← notNull endpoint.mTportStream
  let tstream ← state.streams.read stream
  if error then return state
  else
    let attached := tstream.mTopics.flatMap (·.attached endpoint.mType)
    return { state with
      streams := state.streams.set stream { tstream with mReady := true }
      work := attached.map (fun other => (thread, .settle other)) ++
        (thread, .add id) :: (thread, .finish id) :: state.work }

/-- A step of an event thread, with the streams that it frees. -/
def perform (thread : Nat) : ThreadStep → Step Fault StreamCounts FreedStream
  | .add id => fun state => (state.attach thread id).map (·, [])
  | .unhold id => fun state => (state.unhold id).map (·, [])
  | .remove id => fun state => (state.removeEventCb thread id).map (·, [])
  | .removeStream stream => fun state => do
      let tstream ← state.streams.read stream
      if tstream.mRefCount = 0 then
        return ({ state with streams := state.streams.erase stream },
          [⟨tstream.mTopics.length, state.waiting stream⟩])
      else return (state, [])
  | .complete _ id error => fun state => (state.complete thread id error).map (·, [])
  | .settle id => fun state => do
      let endpoint ← state.endpoints.read id
      let state := { state with endpoints := state.endpoints.set id { endpoint with mReady := true } }
      if endpoint.mRemoved then (state.removeEventCb thread id).map (·, []) else return (state, [])
  | .finish id => fun state => do
      let endpoint ← state.endpoints.read id
      if endpoint.mRemoved then (state.removeEventCb thread id).map (·, []) else return (state, [])

/-- What a thread has to do next. -/
def next (state : StreamCounts) (thread : Nat) : Option ThreadStep :=
  (state.work.find? (·.1 = thread)).map (·.2)

/-- An event thread makes its next step, unless it has to wait for the lock. -/
def event (thread : Nat) : Step Fault StreamCounts FreedStream := fun state =>
  match state.next thread with
  | none => .ok (state, [])
  | some step =>
      if state.Blocked step then .ok (state, [])
      else perform thread step { state with work := state.work.erase (thread, step) }

inductive Action where
  | create (mType : TopicType) (mTopic : CString)
  | found (stream : StreamId)
  | addStream (thread : Nat)
  | setStream
  | completed (stream : StreamId) (error : Bool)
  | destroy (id : EndpointId)
  | event (thread : Nat)

def step : Action → Step Fault StreamCounts FreedStream
  | .create mType mTopic => fun state => .ok (state.create mType mTopic, [])
  | .found stream => fun state => (state.found stream).map (·, [])
  | .addStream thread => fun state => (state.addStream thread).map (·, [])
  | .setStream => fun state => state.setStream.map (·, [])
  | .completed stream error => fun state => (state.completed stream error).map (·, [])
  | .destroy id => fun state => (state.destroy id).map (·, [])
  | .event thread => event thread

def run (actions : List Action) : Step Fault StreamCounts FreedStream :=
  Step.all (actions.map step)

end StreamCounts

end Sbf
