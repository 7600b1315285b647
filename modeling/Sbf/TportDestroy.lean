import Sbf.EndpointRuns
import Sbf.HandlerStreams

set_option autoImplicit false

/-! The end of a transport: `sbfTport_destroy`, and its two callbacks on the thread of each
stream, between the events of that thread. -/

namespace Sbf

/-- `sbfTportDestroyStreamClosure`, with the callback that is queued. `ahead` are the events
that are queued before it. -/
structure DestroyStreamClosure where
  mThread : Nat
  mTportStream : StreamId
  second : Bool
  ahead : List Event
deriving DecidableEq, Repr

/-- A transport that may be being destroyed; `closures` are in the order of `sbfMw_enqueueThread`. -/
structure TportDestroy (H S : Type) where
  tport : Tport H S
  destroying : Bool
  mStreamsWaiting : UInt32
  closures : List DestroyStreamClosure

namespace TportDestroy

variable {H S : Type}

def new (handler : H) : TportDestroy H S := ⟨.new handler, false, 0, []⟩

/-- `sbfTportSecondDestroyStreamCb` -/
def secondDestroyStreamCb (closure : DestroyStreamClosure) (state : TportDestroy H S) :
    TportDestroy H S :=
  { state with
    closures := state.closures.erase closure
    mStreamsWaiting := state.mStreamsWaiting - 1 }

/-- Who is on the nodes of a stream, in the order of the loops over them. -/
def endpointsOn (topics : List TportTopic) : List (TopicType × EndpointId) :=
  topics.flatMap (fun ttopic => ttopic.mPubs.map (TopicType.pub, ·) ++
    ttopic.mSubs.map (TopicType.sub, ·))

/-- `sbfPub_destroy` and `sbfSub_destroy`, of one after the other. -/
def destroyEndpoints : List (TopicType × EndpointId) → Tport H S → Except Fault (Tport H S)
  | [], tport => .ok tport
  | (type, id) :: rest, tport => do
      let tport ← tport.destroy type id
      destroyEndpoints rest tport

/-- `sbfTportFirstDestroyStreamCb`, which is one step: it looks for the stream in `mStreams` without
`mStreamsLock`, and what other threads do to the list meanwhile is left out. -/
def firstDestroyStreamCb (closure : DestroyStreamClosure) (state : TportDestroy H S) :
    Except Fault (TportDestroy H S) :=
  if closure.mTportStream ∉ state.tport.mStreams then
    .ok (state.secondDestroyStreamCb closure)
  else do
    let tstream ← state.tport.streams.read closure.mTportStream
    let tport ← destroyEndpoints (endpointsOn tstream.mTopics) state.tport
    return { state with
      tport := tport
      closures := state.closures.erase closure ++
        [{ closure with second := true, ahead := tport.queues closure.mThread }] }

/-- The callback that comes next on a thread, unless an event does that is queued before it. -/
def next (thread : Nat) (state : TportDestroy H S) : Option DestroyStreamClosure :=
  match state.closures.find? (·.mThread = thread) with
  | none => none
  | some closure =>
      if (state.tport.queues thread).head?.any (· ∈ closure.ahead) then none else some closure

/-- One stream of the loop of `sbfTport_destroy`. -/
def enqueue (stream : StreamId) (state : TportDestroy H S) : Except Fault (TportDestroy H S) := do
  let tstream ← state.tport.streams.read stream
  return { state with
    closures := state.closures ++
      [⟨tstream.mThread, stream, false, state.tport.queues tstream.mThread⟩]
    mStreamsWaiting := state.mStreamsWaiting + 1 }

/-- `sbfTport_destroy` up to where it waits. -/
def destroy (state : TportDestroy H S) : Except Fault (TportDestroy H S) :=
  if state.destroying then .ok state
  else state.tport.mStreams.foldlM (fun state stream => state.enqueue stream)
    { state with destroying := true }

inductive Action where
  | call (call : Tport.Call)
  | destroy

variable (config : TportConfig H S)

/-- The next step of a thread. -/
def event (thread : Nat) (failed : Bool) : Step Fault (TportDestroy H S) EndpointId := fun state =>
  match state.next thread with
  | none => (Tport.step config (.event thread failed) state.tport).map
      (fun result => ({ state with tport := result.1 }, result.2))
  | some closure =>
      if closure.second then .ok (state.secondDestroyStreamCb closure, [])
      else (state.firstDestroyStreamCb closure).map (·, [])

def step : Action → Step Fault (TportDestroy H S) EndpointId
  | .call (.event thread failed) => event config thread failed
  | .call call => fun state => (Tport.step config call state.tport).map
      (fun result => ({ state with tport := result.1 }, result.2))
  | .destroy => fun state => state.destroy.map (·, [])

def run (actions : List Action) : Step Fault (TportDestroy H S) EndpointId :=
  Step.all (actions.map (step config))

/-- What programs do: they use handles of the right type, and make nothing new on a transport
that they destroy. -/
def Allowed (state : TportDestroy H S) : Action → Prop
  | .call (.createPub _ _) | .call (.createSub _ _) => state.destroying = false
  | .call call => state.tport.Allowed call
  | .destroy => True

/-- A stream was added without an error when its first callback finds it, no removal takes a node
from the endpoints of the other kind, and the streams can be counted. -/
def Clean (state : TportDestroy H S) : Action → Prop
  | .call (.event thread failed) =>
      match state.next thread with
      | none => state.tport.Tidy (.event thread failed)
      | some closure => closure.second = false → ∀ tstream,
          state.tport.streams.find closure.mTportStream = some tstream → tstream.mReady = true
  | .call _ => True
  | .destroy => state.tport.mStreams.length < UInt32.size

/-- Nothing is left of what the transport had. -/
structure Cleared (state : TportDestroy H S) : Prop where
  streams : state.tport.mStreams = []
  endpoints : ∀ id endpoint, state.tport.endpoints.find id = some endpoint → state.tport.Gone id
  events : ∀ thread, state.tport.queues thread = []
  closures : state.closures = []

end TportDestroy

end Sbf
