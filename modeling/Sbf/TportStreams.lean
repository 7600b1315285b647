import Mathlib.Data.UInt
import Mathlib.Data.List.Sort
import Sbf.PubHeader
import Sbf.RbTree

set_option autoImplicit false

namespace Sbf

open Octets

/-- The address of a `struct sbfPubImpl` or a `struct sbfSubImpl`. -/
abbrev EndpointId := Nat

/-- Objects by their addresses. An address is never used again. -/
abbrev Heap (α : Type) := RbTree Nat α

/-- Follow a pointer. -/
def Heap.read {α : Type} (heap : Heap α) (address : Nat) : Except Fault α :=
  match heap.find address with
  | none => .error .freed
  | some object => .ok object

theorem Heap.read_some {α : Type} {heap : Heap α} {address : Nat} {object : α}
    (found : heap.find address = some object) : heap.read address = .ok object := by
  simp only [read, found]

/-- Follow a pointer that may be null. -/
def notNull {α : Type} : Option α → Except Fault α
  | none => .error .null
  | some address => .ok address

theorem bind_ok {α β : Type} {first : Except Fault α} {next : α → Except Fault β} {result : β}
    (ran : (first >>= next) = .ok result) :
    ∃ middle, first = .ok middle ∧ next middle = .ok result := by
  cases first with
  | error fault => cases ran
  | ok middle => exact ⟨middle, rfl, ran⟩

theorem notNull_ok {α : Type} {pointer : Option α} {address : α}
    (ran : notNull pointer = .ok address) : pointer = some address := by
  cases pointer with
  | none => cases ran
  | some other => rw [Except.ok.inj ran]

/-- Most steps emit nothing. -/
theorem silent_ok {α ω : Type} {result : Except Fault α} {next : α} {out : List ω}
    (ran : result.map (·, ([] : List ω)) = .ok (next, out)) : result = .ok next ∧ out = [] := by
  cases result with
  | error fault => cases ran
  | ok state =>
      cases ran
      exact ⟨rfl, rfl⟩

theorem Heap.find_of_read {α : Type} {heap : Heap α} {address : Nat} {object : α}
    (ran : heap.read address = .ok object) : heap.find address = some object := by
  unfold read at ran
  split at ran
  · cases ran
  · rename_i found
    rw [found, Except.ok.inj ran]

/-- The fields that the transport uses of `struct sbfPubImpl` and of
`struct sbfSubImpl`; only a subscription has a weight, and `mReadyCb` is only
whether there is one. -/
structure Endpoint where
  mTopic : Topic
  mWeight : UInt32
  mDestroyed : Bool
  mRemoved : Bool
  mRefCount : Int
  mReady : Bool
  mTportStream : Option StreamId
  mTportTopic : Option Nat
  mReadyCb : Bool

/-- `struct sbfTportStreamImpl`, with the handler's own stream at `mStream`. -/
structure TportStream (S : Type) where
  mThread : Nat
  mStream : S
  mRefCount : Int
  mReady : Bool
  mTopics : List TportTopic

namespace TportTopic

/-- A node as `sbfTport_addTopic` makes it. -/
def new (address : Nat) (topic : CString) : TportTopic := ⟨address, topic, [], [], none, .zero⟩

/-- `mPubs` or `mSubs` -/
def attached (ttopic : TportTopic) : TopicType → List EndpointId
  | .pub => ttopic.mPubs
  | .sub => ttopic.mSubs

/-- `TAILQ_INSERT_TAIL` -/
def insertTail (ttopic : TportTopic) (id : EndpointId) : TopicType → TportTopic
  | .pub => { ttopic with mPubs := ttopic.mPubs ++ [id] }
  | .sub => { ttopic with mSubs := ttopic.mSubs ++ [id] }

/-- `TAILQ_REMOVE`; a subscription that `mNext` points to hands it on first. -/
def unlink (ttopic : TportTopic) (id : EndpointId) : TopicType → TportTopic
  | .pub => { ttopic with mPubs := ttopic.mPubs.erase id }
  | .sub =>
      { ttopic with
        mNext := if ttopic.mNext = some id then Tailq.next ttopic.mSubs id else ttopic.mNext
        mSubs := ttopic.mSubs.erase id }

end TportTopic

namespace TportStream

variable {S : Type} (tstream : TportStream S)

/-- `sbfTport_findTopic` -/
def findTopic (topic : CString) : Option TportTopic := Topics.find tstream.mTopics topic.chars

/-- Where the tree keeps a node: names in the order of `strcmp`. -/
def insertTopic (topics : List TportTopic) (ttopic : TportTopic) : List TportTopic :=
  topics.takeWhile (·.mTopic.chars < ttopic.mTopic.chars) ++
    ttopic :: topics.dropWhile (·.mTopic.chars < ttopic.mTopic.chars)

/-- `sbfTport_addTopic`, with the address that the new node gets. -/
def addTopic (address : Nat) (topic : CString) : TportStream S :=
  { tstream with
    mTopics := insertTopic tstream.mTopics (.new address topic)
    mRefCount := tstream.mRefCount + 1 }

/-- The node of a topic, made if there is none, and the stream with it. -/
def ensureTopic (address : Nat) (topic : CString) : TportTopic × TportStream S :=
  match tstream.findTopic topic with
  | some ttopic => (ttopic, tstream)
  | none => (.new address topic, tstream.addTopic address topic)

/-- `sbfTport_removeTopic`, with whether that was the last reference. -/
def removeTopic (address : Nat) : Except Fault (Bool × TportStream S) :=
  let mRefCount := tstream.mRefCount - 1
  let mTopics := tstream.mTopics.filter (·.address ≠ address)
  if mRefCount = 0 ∧ mTopics ≠ [] then .error .assertion
  else .ok (mRefCount = 0, { tstream with mRefCount := mRefCount, mTopics := mTopics })

/-- A node of the stream by its address. -/
def topicAt (address : Nat) : Except Fault TportTopic :=
  match tstream.mTopics.find? (·.address = address) with
  | none => .error .freed
  | some ttopic => .ok ttopic

end TportStream

/-- The callbacks that are queued on event threads, with their closures: the two of
an endpoint, and the completion of the stream that an endpoint has created. -/
inductive Event where
  | add (type : TopicType) (id : EndpointId)
  | remove (type : TopicType) (id : EndpointId)
  | complete (type : TopicType) (id : EndpointId)
  deriving DecidableEq, Repr

/-- The functions of a handler that deal with streams. `H` is the handler's state
and `S` its streams. Adding a stream is given the type of the completion callback
and queues events on the thread, and removing a stream deletes events there.
`mAddComplete` is the error that the completion reports, given whether its socket
failed. -/
structure HandlerTable (H S : Type) where
  mFindStream : H → Topic → Option StreamId
  mAddStream : H → TopicType → Topic → (thread : Nat) → (handle : StreamId) →
    (closure : EndpointId) → Except Fault (H × S × List Event)
  mRemoveStream : H → S → H × List Event
  mAddComplete : Bool → Bool
  /-- A new stream completes once, for the endpoint that it was made for. -/
  completes : ∀ {mHandler : H} {type : TopicType} {topic : Topic} {thread : Nat}
    {handle : StreamId} {closure : EndpointId} {after : H} {mStream : S} {events : List Event},
    mAddStream mHandler type topic thread handle closure = .ok (after, mStream, events) →
      events = [.complete type closure]

/-- What a transport does not change after its creation. -/
structure TportConfig (H S : Type) where
  mHandlerTable : HandlerTable H S
  numThreads : Nat
  mThreads : UInt64
  topicWeight : Topic → UInt32

/-- The lines of the transport's log that say what became of an endpoint or a stream. -/
inductive LogLine where
  | adding (id : EndpointId)
  | removing (id : EndpointId)
  | removingStream (id : StreamId)
  deriving DecidableEq, Repr

/-- A transport with the memory, the event queues and the callbacks on user queues
that belong to it. -/
structure Tport (H S : Type) where
  mHandler : H
  mWeights : Nat → UInt32
  mStreams : List StreamId
  streams : Heap (TportStream S)
  endpoints : Heap Endpoint
  queues : Nat → List Event
  items : List EndpointId
  mLog : List LogLine
  fresh : Nat

namespace Tport

variable {H S : Type}

/-- A new transport. -/
def new (handler : H) : Tport H S :=
  ⟨handler, fun _ => 0, [], .empty, .empty, fun _ => [], [], [], 0⟩

def log (tport : Tport H S) (line : LogLine) : Tport H S :=
  { tport with mLog := tport.mLog ++ [line] }

/-- `sbfMw_enqueueThread` -/
def enqueueThread (tport : Tport H S) (thread : Nat) (events : List Event) : Tport H S :=
  { tport with
    queues := fun other => if other = thread then tport.queues thread ++ events
      else tport.queues other }

/-- `event_del` -/
def deleteEvents (tport : Tport H S) (thread : Nat) (events : List Event) : Tport H S :=
  { tport with
    queues := fun other => if other = thread then (tport.queues thread).filter (· ∉ events)
      else tport.queues other }

/-- `sbfTport_adjustWeight`; the change wraps as unsigned arithmetic does. -/
def adjustWeight (tport : Tport H S) (thread : Nat) (change : UInt32) : Tport H S :=
  { tport with
    mWeights := fun other => if other = thread then tport.mWeights thread + change
      else tport.mWeights other }

/-- The loop of `sbfTport_nextThread` over the threads from `i` on. -/
def nextThreadFrom (mask : UInt64) (mWeights : Nat → UInt32) : Nat → Nat → Option Nat → UInt32 →
    Option Nat
  | 0, _, found, _ => found
  | left + 1, i, found, weight =>
      if ~~~mask &&& (1 <<< UInt64.ofNat i) ≠ 0 then
        nextThreadFrom mask mWeights left (i + 1) found weight
      else if mWeights i < weight then
        nextThreadFrom mask mWeights left (i + 1) (some i) (mWeights i)
      else nextThreadFrom mask mWeights left (i + 1) found weight

/-- `sbfTport_nextThread` -/
def nextThread (config : TportConfig H S) (tport : Tport H S) : Option Nat :=
  nextThreadFrom config.mThreads tport.mWeights config.numThreads 0 none 0xffffffff

/-- `sbfTport_addStream`, for the endpoint that creates the stream. -/
def addStream (config : TportConfig H S) (type : TopicType) (topic : Topic)
    (closure : EndpointId) (tport : Tport H S) : Except Fault (StreamId × Tport H S) := do
  let thread ← notNull (tport.nextThread config)
  let id := tport.fresh
  let (mHandler, mStream, events) ←
    config.mHandlerTable.mAddStream tport.mHandler type topic thread id closure
  let tstream : TportStream S := ⟨thread, mStream, 0, false, []⟩
  return (id,
    { tport.enqueueThread thread events with
      mHandler := mHandler
      mStreams := tport.mStreams ++ [id]
      streams := tport.streams.set id tstream
      fresh := tport.fresh + 1 })

/-- `sbfTport_removeStream` -/
def removeStream (config : TportConfig H S) (id : StreamId) (tport : Tport H S) :
    Except Fault (Tport H S) := do
  let tstream ← tport.streams.read id
  let (mHandler, events) := config.mHandlerTable.mRemoveStream tport.mHandler tstream.mStream
  return (
    { tport.deleteEvents tstream.mThread events with
      mHandler := mHandler
      mStreams := tport.mStreams.erase id
      streams := tport.streams.erase id }).log (.removingStream id)

end Tport

end Sbf
