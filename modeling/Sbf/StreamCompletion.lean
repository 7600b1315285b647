import Sbf.TportSound

set_option autoImplicit false

/-! A transport whose handler completes its streams when it likes: a completion that is
due comes before or after any other event of its thread. -/

namespace Sbf

open Octets Topics

/-- The handler decides when the event comes. -/
def Event.byHandler : Event → Bool
  | .complete _ _ => true
  | _ => false

/-- Whether an endpoint that becomes ready has a callback for it. -/
def Endpoint.called (endpoint : Endpoint) : Bool := !endpoint.mDestroyed && endpoint.mReadyCb

namespace Tport

variable {H S : Type}

/-- What the user of an endpoint does and hears. -/
inductive Notice where
  | destroyed (id : EndpointId)
  | ready (id : EndpointId)
  deriving DecidableEq, Repr

/-- Two notices in this order: an endpoint is ready once, and not behind its destroy call. -/
def Notice.InOrder (first second : Notice) : Prop :=
  ∀ id, second = .ready id → first ≠ .ready id ∧ first ≠ .destroyed id

/-- What can happen next: a call of the user's, the next event of a thread apart from
completions, a completion that is due, or a ready callback on a user queue. -/
inductive Turn where
  | createPub (topic0 : CString) (mReadyCb : Bool)
  | createSub (topic0 : CString) (mReadyCb : Bool)
  | destroyPub (id : EndpointId)
  | destroySub (id : EndpointId)
  | event (thread : Nat)
  | complete (thread : Nat) (type : TopicType) (id : EndpointId)
  | dispatch (id : EndpointId)
  deriving DecidableEq

/-- An event leaves the queue of its thread. -/
def take (thread : Nat) (event : Event) (tport : Tport H S) : Tport H S :=
  { tport with
    queues := fun other => if other = thread then (tport.queues thread).erase event
      else tport.queues other }

/-- The handler reports that the stream of an endpoint has been added. -/
def complete (config : TportConfig H S) (thread : Nat) (type : TopicType) (id : EndpointId)
    (tport : Tport H S) : Except Fault (Tport H S) :=
  (tport.take thread (.complete type id)).addStreamCompleteCb config type id false

/-- One turn, with what the user does or hears in it. -/
def turn (config : TportConfig H S) : Turn → Step Fault (Tport H S) Notice
  | .createPub topic0 mReadyCb => fun tport =>
      (tport.sbfPub_create config topic0 mReadyCb).map (·, [])
  | .createSub topic0 mReadyCb => fun tport =>
      (tport.sbfSub_create config topic0 mReadyCb).map (·, [])
  | .destroyPub id => fun tport => (tport.sbfPub_destroy id).map (·, [.destroyed id])
  | .destroySub id => fun tport => (tport.sbfSub_destroy id).map (·, [.destroyed id])
  | .event thread => fun tport =>
      match (tport.queues thread).find? (!·.byHandler) with
      | none => .ok (tport, [])
      | some event => (callback config false event (tport.take thread event)).map (·, [])
  | .complete thread type id => fun tport =>
      if .complete type id ∈ tport.queues thread then
        (tport.complete config thread type id).map (·, [])
      else .ok (tport, [])
  | .dispatch id => fun tport =>
      if id ∈ tport.items then
        (readyQueueCb id { tport with items := tport.items.erase id }).map
          (fun result => (result.1, result.2.map .ready))
      else .ok (tport, [])

def runTurns (config : TportConfig H S) (turns : List Turn) : Step Fault (Tport H S) Notice :=
  Step.all (turns.map (turn config))

/-- An endpoint that was not ready has become ready, once. -/
structure Readied (after : Tport H S) (id : EndpointId) (endpoint : Endpoint) : Prop where
  unready : endpoint.mReady = false
  ready : ∃ endpoint', after.endpoints.find id = some endpoint' ∧ endpoint'.mReady = true
  once : after.items.count id = if endpoint.called then 1 else 0

/-- The removal of an endpoint has been carried out, once. -/
structure Removed (after : Tport H S) (id : EndpointId) : Prop where
  once : after.mLog.count (.removing id) = 1
  freed : after.endpoints.find id = none

/-- The completion for an endpoint's stream runs through. It makes the endpoint ready and
every endpoint that is attached to the stream, and removes those whose removal was
deferred. -/
def Works (config : TportConfig H S) (tport : Tport H S) (thread : Nat) (type : TopicType)
    (id : EndpointId) : Prop :=
  ∃ after, tport.complete config thread type id = .ok after ∧
    ∀ other endpoint, tport.endpoints.find other = some endpoint →
      endpoint.mTportStream = tport.streamOf id → endpoint.mTportTopic ≠ none ∨ other = id →
        if endpoint.mRemoved then after.Removed other else after.Readied other endpoint

/-- Whoever is attached to the stream of an endpoint is of its kind, and has no removal
deferred. -/
def Clean (tport : Tport H S) (type : TopicType) (id : EndpointId) : Prop :=
  ∀ other endpoint, tport.endpoints.find other = some endpoint →
    endpoint.mTportStream = tport.streamOf id → endpoint.mTportTopic ≠ none →
      endpoint.mTopic.mType = type ∧ endpoint.mRemoved = false

/-- Nothing has been done for an endpoint yet. -/
structure Untouched (tport : Tport H S) (out : List Notice) (id : EndpointId) : Prop where
  items : id ∉ tport.items
  silent : .ready id ∉ out
  here : ¬ tport.Gone id

/-- What holds of an endpoint between the turns. -/
structure Fits (tport : Tport H S) (out : List Notice) (id : EndpointId) (endpoint : Endpoint) :
    Prop where
  small : ∀ stream, endpoint.mTportStream = some stream → stream < tport.fresh
  unready : endpoint.mReady = false → tport.Untouched out id ∧ endpoint.mRefCount = 1
  ready : endpoint.mReady = true → endpoint.mTportTopic ≠ none
  marked : endpoint.mRemoved = true → endpoint.mDestroyed = true
  starts : ∀ thread, ∀ event ∈ tport.queues thread, event.id = id → event.Starts →
    endpoint.mTportTopic = none ∧ endpoint.mTopic.mType = event.type
  removes : ∀ thread, ∀ event ∈ tport.queues thread, event.id = id → event.Removes →
    endpoint.mDestroyed = true
  destroyed : .destroyed id ∈ out → endpoint.mDestroyed = true

/-- The lists of a stream's nodes say who is attached to it, and its references are
counted. -/
structure Stands (tport : Tport H S) (stream : StreamId) (tstream : TportStream S) : Prop where
  found : tport.streams.find stream = some tstream
  nodes : Nodes tstream.mTopics
  small : ∀ ttopic ∈ tstream.mTopics, ttopic.address < tport.fresh
  listed : ∀ address name type id, OnNode tstream.mTopics address name type id ↔
    ∃ endpoint, tport.endpoints.find id = some endpoint ∧
      endpoint.mTportStream = some stream ∧ endpoint.mTportTopic = some address ∧
      endpoint.mTopic.mType = type ∧ endpoint.mTopic.mTopic = name
  counted : ∃ waiters : List EndpointId, waiters.Nodup ∧
    (∀ id, id ∈ waiters ↔ ∃ endpoint, tport.endpoints.find id = some endpoint ∧
      endpoint.waits stream = true) ∧
    tstream.mRefCount = tstream.mTopics.length + waiters.length

/-- A stream that waits for its completion: nobody on it is ready. -/
structure Pending (tport : Tport H S) (stream : StreamId) (tstream : TportStream S) : Prop
    extends Stands tport stream tstream where
  unready : tstream.mReady = false
  waiting : ∀ id endpoint, tport.endpoints.find id = some endpoint →
    endpoint.mTportStream = some stream → endpoint.mReady = false

/-- The completion of a stream is due, for an endpoint of it. -/
def Awaits (tport : Tport H S) (id : EndpointId) (stream : StreamId) : Prop :=
  (∃ thread type, .complete type id ∈ tport.queues thread) ∧ tport.streamOf id = some stream

/-- What holds between the turns. -/
structure Orderly (tport : Tport H S) (out : List Notice) : Prop where
  unused : ∀ id, tport.fresh ≤ id → tport.endpoints.find id = none ∧ tport.Untouched out id ∧
    .destroyed id ∉ out ∧ ∀ thread, ∀ event ∈ tport.queues thread, event.id ≠ id
  known : ∀ stream, (tport.streams.find stream).isSome → stream < tport.fresh
  each : ∀ id endpoint, tport.endpoints.find id = some endpoint → tport.Fits out id endpoint
  distinct : ∀ thread, (tport.queues thread).Pairwise
    (fun first second => first.Starts → second.Starts → first.id ≠ second.id)
  across : ∀ left right, left ≠ right → ∀ first ∈ tport.queues left,
    ∀ second ∈ tport.queues right, first.Starts → second.Starts → first.id ≠ second.id
  items : tport.items.Nodup
  kept : ∀ id ∈ tport.items, .ready id ∉ out
  inOrder : out.Pairwise Notice.InOrder
  given : ∀ thread type id, .complete type id ∈ tport.queues thread →
    ∃ stream, tport.streamOf id = some stream
  completes : ∀ left right stream, tport.Awaits left stream → tport.Awaits right stream →
    left = right
  pending : ∀ id stream, tport.Awaits id stream → ∃ tstream, tport.Pending stream tstream

theorem new_orderly (handler : H) : Orderly (Tport.new handler : Tport H S) [] where
  unused _ _ := by
    refine ⟨rfl, ⟨?_, ?_, ?_⟩, ?_, ?_⟩
    · exact List.not_mem_nil
    · exact List.not_mem_nil
    · exact List.not_mem_nil
    · exact List.not_mem_nil
    · intro _ _ member
      cases member
  known _ there := by cases there
  each _ _ found := by cases found
  distinct _ := .nil
  across _ _ _ _ member := by cases member
  items := .nil
  kept _ member := by cases member
  inOrder := .nil
  given _ _ _ member := by cases member
  completes _ _ _ awaits := by
    obtain ⟨⟨_, _, member⟩, _⟩ := awaits
    cases member
  pending _ _ awaits := by
    obtain ⟨⟨_, _, member⟩, _⟩ := awaits
    cases member

end Tport

end Sbf
