import Sbf.TopicNodes
import Sbf.EndpointEvents

set_option autoImplicit false

namespace Sbf

open Octets

namespace Event

/-- The endpoint that an event is for. -/
def id : Event → EndpointId
  | .add _ id => id
  | .remove _ id => id
  | .complete _ id => id

def type : Event → TopicType
  | .add type _ => type
  | .remove type _ => type
  | .complete type _ => type

/-- The event puts its endpoint on a node. -/
def Starts : Event → Prop
  | .remove _ _ => False
  | _ => True

def Completes : Event → Prop
  | .complete _ _ => True
  | _ => False

def Removes : Event → Prop
  | .remove _ _ => True
  | _ => False

theorem Removes.not_starts {event : Event} (removes : event.Removes) : ¬ event.Starts := by
  cases event <;> simp_all [Removes, Starts]

theorem Completes.starts {event : Event} (completes : event.Completes) : event.Starts := by
  cases event <;> simp_all [Completes, Starts]

end Event

/-- An endpoint with a reference to a stream of its own, until it is added. -/
def Endpoint.waits (stream : StreamId) (endpoint : Endpoint) : Bool :=
  endpoint.mTportStream = some stream && endpoint.mTportTopic = none

namespace Tport

variable {H S : Type}

/-- The add event of an endpoint has run. -/
def Added (tport : Tport H S) (id : EndpointId) : Prop := .adding id ∈ tport.mLog

/-- The removal of an endpoint has been carried out. -/
def Gone (tport : Tport H S) (id : EndpointId) : Prop := .removing id ∈ tport.mLog

instance (tport : Tport H S) (id : EndpointId) : Decidable (tport.Added id) :=
  inferInstanceAs (Decidable (_ ∈ _))

instance (tport : Tport H S) (id : EndpointId) : Decidable (tport.Gone id) :=
  inferInstanceAs (Decidable (_ ∈ _))

/-- The stream that an endpoint was given. -/
def streamOf (tport : Tport H S) (id : EndpointId) : Option StreamId :=
  (tport.endpoints.find id).bind (·.mTportStream)

def waiting (tport : Tport H S) (stream : StreamId) : Nat :=
  tport.endpoints.count (fun _ endpoint => endpoint.waits stream)

/-- Two events in the order of a queue: an endpoint is added once, has no event behind
its removal, and nobody is added to a stream before its completion. -/
structure Apart (streamOf : EndpointId → Option StreamId) (first second : Event) : Prop where
  starts : first.Starts → second.Starts → first.id ≠ second.id
  removes : first.Removes → first.id ≠ second.id
  completes : first.Starts → second.Completes → streamOf first.id ≠ streamOf second.id

theorem apart_congr {before after : EndpointId → Option StreamId} {queue : List Event}
    (ordered : queue.Pairwise (Apart before))
    (same : ∀ event ∈ queue, after event.id = before event.id) : queue.Pairwise (Apart after) := by
  apply ordered.imp_of_mem
  intro first second inside inside' apart
  refine ⟨apart.starts, apart.removes, ?_⟩
  rw [same first inside, same second inside']
  exact apart.completes

/-- What an event of a thread relies on. -/
structure Due (tport : Tport H S) (thread : Nat) (event : Event) (endpoint : Endpoint)
    (stream : StreamId) (tstream : TportStream S) : Prop where
  known : tport.endpoints.find event.id = some endpoint
  given : endpoint.mTportStream = some stream
  found : tport.streams.find stream = some tstream
  thread : tstream.mThread = thread
  type : endpoint.mTopic.mType = event.type
  here : ¬ tport.Gone event.id
  starts : event.Starts → endpoint.mTportTopic = none
  removes : event.Removes → endpoint.mDestroyed = true ∧ endpoint.mRemoved = false
  completes : event.Completes →
    endpoint.mRemoved = false ∧ tstream.mTopics = [] ∧ tstream.mReady = false

theorem Due.streamOf {tport : Tport H S} {thread : Nat} {event : Event} {endpoint : Endpoint}
    {stream : StreamId} {tstream : TportStream S}
    (due : tport.Due thread event endpoint stream tstream) :
    tport.streamOf event.id = some stream := by
  rw [Tport.streamOf, due.known, Option.bind_some, due.given]

/-- An event stays due while its endpoint does not change, and of its stream only what a
completion does not look at. -/
theorem Due.of_same {before after : Tport H S} {thread : Nat} {event : Event}
    {endpoint : Endpoint} {stream : StreamId} {tstream tstream' : TportStream S}
    (due : before.Due thread event endpoint stream tstream)
    (known : after.endpoints.find event.id = some endpoint)
    (found : after.streams.find stream = some tstream')
    (same_thread : tstream'.mThread = tstream.mThread) (here : ¬ after.Gone event.id)
    (same : event.Completes → tstream'.mTopics = tstream.mTopics ∧ tstream'.mReady = tstream.mReady) :
    after.Due thread event endpoint stream tstream' where
  known := known
  given := due.given
  found := found
  thread := same_thread.trans due.thread
  type := due.type
  here := here
  starts := due.starts
  removes := due.removes
  completes completes := by
    obtain ⟨unmarked, empty, unready⟩ := due.completes completes
    obtain ⟨topics, ready⟩ := same completes
    exact ⟨unmarked, topics.trans empty, ready.trans unready⟩

/-- Addresses are given out in order. -/
structure Numbered (tport : Tport H S) : Prop where
  freshStreams : ∀ id tstream, tport.streams.find id = some tstream → id < tport.fresh ∧
    ∀ ttopic ∈ tstream.mTopics, ttopic.address < tport.fresh
  freshEndpoints : ∀ id endpoint, tport.endpoints.find id = some endpoint → id < tport.fresh ∧
    ∀ stream, endpoint.mTportStream = some stream → stream < tport.fresh
  freshLines : ∀ id, tport.Added id ∨ tport.Gone id → id < tport.fresh

/-- The lists of the nodes say who is attached where. -/
structure Lists (tport : Tport H S) : Prop where
  nodes : ∀ id tstream, tport.streams.find id = some tstream → Topics.Nodes tstream.mTopics
  occupied : ∀ id tstream, tport.streams.find id = some tstream →
    ∀ ttopic ∈ tstream.mTopics, ttopic.Occupied
  listed : ∀ stream tstream, tport.streams.find stream = some tstream →
    ∀ address name type id, Topics.OnNode tstream.mTopics address name type id ↔
      ∃ endpoint, tport.endpoints.find id = some endpoint ∧ ¬ tport.Gone id ∧
        endpoint.mTportStream = some stream ∧ endpoint.mTportTopic = some address ∧
        endpoint.mTopic.mType = type ∧ endpoint.mTopic.mTopic = name

/-- Endpoints go from waiting to attached to gone. -/
structure Lifetimes (tport : Tport H S) : Prop where
  given : ∀ id endpoint, tport.endpoints.find id = some endpoint → ¬ tport.Gone id →
    ∃ stream, endpoint.mTportStream = some stream ∧ (tport.streams.find stream).isSome
  added : ∀ id endpoint, tport.endpoints.find id = some endpoint →
    (tport.Added id ↔ endpoint.mTportTopic ≠ none)
  ready : ∀ id endpoint, tport.endpoints.find id = some endpoint → endpoint.mReady = true →
    endpoint.mTportTopic ≠ none
  gone : ∀ id, tport.Gone id → tport.Added id
  kept : ∀ id, tport.Added id → ¬ tport.Gone id → (tport.endpoints.find id).isSome
  marked : ∀ id endpoint, tport.endpoints.find id = some endpoint →
    endpoint.mRemoved = true ∨ tport.Gone id → endpoint.mDestroyed = true

/-- References are counted. -/
structure References (tport : Tport H S) : Prop where
  referred : ∀ id endpoint, tport.endpoints.find id = some endpoint →
    endpoint.mRefCount = (if tport.Gone id then 0 else 1) + tport.items.count id
  queued : ∀ id ∈ tport.items, (tport.endpoints.find id).isSome
  counted : ∀ id tstream, tport.streams.find id = some tstream →
    tstream.mRefCount = tstream.mTopics.length + tport.waiting id

/-- The events of the threads are due, in this order. -/
structure Scheduled (tport : Tport H S) : Prop where
  events : ∀ thread, ∀ event ∈ tport.queues thread, ∃ endpoint stream tstream,
    tport.Due thread event endpoint stream tstream
  ordered : ∀ thread, (tport.queues thread).Pairwise (Apart tport.streamOf)

/-- What holds between the steps of a transport. -/
structure Sound (tport : Tport H S) : Prop extends Numbered tport, Lists tport, Lifetimes tport,
  References tport, Scheduled tport

theorem new_sound (handler : H) : Sound (Tport.new handler : Tport H S) where
  freshStreams _ _ found := by cases found
  freshEndpoints _ _ found := by cases found
  freshLines _ line := by rcases line with line | line <;> cases line
  nodes _ _ found := by cases found
  occupied _ _ found := by cases found
  listed _ _ found := by cases found
  given _ _ found := by cases found
  added _ _ found := by cases found
  ready _ _ found := by cases found
  gone _ line := by cases line
  kept _ line := by cases line
  marked _ _ found := by cases found
  referred _ _ found := by cases found
  queued _ member := by cases member
  counted _ _ found := by cases found
  events _ _ member := by cases member
  ordered _ := .nil

/-- What `Sound` speaks about is the same, but for events that have left the queues. -/
theorem Sound.of_same {before after : Tport H S} (sound : Sound before)
    (streams : after.streams = before.streams) (endpoints : after.endpoints = before.endpoints)
    (items : after.items = before.items) (fresh : after.fresh = before.fresh)
    (added : ∀ id, after.Added id ↔ before.Added id) (gone : ∀ id, after.Gone id ↔ before.Gone id)
    (queues : ∀ thread, (after.queues thread).Sublist (before.queues thread)) : Sound after where
  freshStreams := by
    rw [streams, fresh]
    exact sound.freshStreams
  freshEndpoints := by
    rw [endpoints, fresh]
    exact sound.freshEndpoints
  freshLines := by
    simp only [added, gone, fresh]
    exact sound.freshLines
  nodes := by
    rw [streams]
    exact sound.nodes
  occupied := by
    rw [streams]
    exact sound.occupied
  listed := by
    simp only [streams, endpoints, gone]
    exact sound.listed
  given := by
    simp only [streams, endpoints, gone]
    exact sound.given
  added := by
    simp only [endpoints, added]
    exact sound.added
  ready := by
    rw [endpoints]
    exact sound.ready
  gone := by
    simp only [added, gone]
    exact sound.gone
  kept := by
    simp only [endpoints, added, gone]
    exact sound.kept
  marked := by
    simp only [endpoints, gone]
    exact sound.marked
  referred := by
    simp only [endpoints, items, gone]
    exact sound.referred
  queued := by
    rw [endpoints, items]
    exact sound.queued
  counted := by
    simp only [streams, waiting, endpoints]
    exact sound.counted
  events thread event member := by
    obtain ⟨endpoint, stream, tstream, due⟩ :=
      sound.events thread event ((queues thread).subset member)
    exact ⟨endpoint, stream, tstream, due.of_same (by rw [endpoints]; exact due.known)
      (by rw [streams]; exact due.found) rfl (mt (gone event.id).mp due.here) (fun _ => ⟨rfl, rfl⟩)⟩
  ordered thread := by
    apply apart_congr ((sound.ordered thread).sublist (queues thread))
    intro event _
    rw [streamOf, streamOf, endpoints]

section SetEndpoint

variable {tport : Tport H S} {id : EndpointId} {before : Endpoint} (after : Endpoint)
  (found : tport.endpoints.find id = some before)
  (stream : after.mTportStream = before.mTportStream)
include found stream

/-- An endpoint keeps its stream. -/
theorem streamOf_set (other : EndpointId) :
    ((tport.endpoints.set id after).find other).bind (·.mTportStream) = tport.streamOf other := by
  rw [RbTree.find_set, streamOf]
  by_cases here : other = id
  · rw [if_pos here, here, found, Option.bind_some, Option.bind_some, stream]
  · rw [if_neg here]

/-- An endpoint that also keeps its node goes on waiting, or not. -/
theorem waiting_set (node : after.mTportTopic = before.mTportTopic) (at_stream : StreamId) :
    (tport.endpoints.set id after).count (fun _ endpoint => endpoint.waits at_stream) =
      tport.waiting at_stream := by
  have counts := RbTree.count_set tport.endpoints (fun _ endpoint => endpoint.waits at_stream) id
    after
  have same : after.waits at_stream = before.waits at_stream := by
    simp only [Endpoint.waits, stream, node]
  rw [found, Option.elim_some, same] at counts
  exact Nat.add_right_cancel counts

variable (sound : Sound tport) (topic : after.mTopic = before.mTopic)
  (node : after.mTportTopic = before.mTportTopic)
include sound topic node

theorem Sound.setEndpoint_listed (at_stream : StreamId) (tstream : TportStream S)
    (lookup : tport.streams.find at_stream = some tstream) (address : Nat) (name : CString)
    (type : TopicType) (other : EndpointId) :
    Topics.OnNode tstream.mTopics address name type other ↔
      ∃ endpoint, (tport.endpoints.set id after).find other = some endpoint ∧ ¬ tport.Gone other ∧
        endpoint.mTportStream = some at_stream ∧ endpoint.mTportTopic = some address ∧
        endpoint.mTopic.mType = type ∧ endpoint.mTopic.mTopic = name := by
  apply (sound.listed at_stream tstream lookup address name type other).trans
  by_cases here : other = id
  · subst here
    simp only [RbTree.find_set_self, found, Option.some.injEq, exists_eq_left', stream, node, topic]
  · simp only [RbTree.find_set, if_neg here]

theorem Sound.setEndpoint_events
    (destroyed : before.mDestroyed = true → after.mDestroyed = true)
    (kept : ∀ thread, ∀ event ∈ tport.queues thread, event.id = id →
      event.Removes ∨ event.Completes → after.mRemoved = before.mRemoved)
    (items : List EndpointId) (thread : Nat) (event : Event) (member : event ∈ tport.queues thread) :
    ∃ endpoint at_stream tstream, Due { tport with
      endpoints := tport.endpoints.set id after
      items := items } thread event endpoint at_stream tstream := by
  obtain ⟨endpoint, at_stream, tstream, due⟩ := sound.events thread event member
  by_cases here : event.id = id
  · obtain rfl : before = endpoint := by
      have known := due.known
      rw [here, found] at known
      exact Option.some.inj known
    refine ⟨after, at_stream, tstream, by rw [RbTree.find_set, if_pos here],
      stream.trans due.given, due.found, due.thread, (congrArg Topic.mType topic).trans due.type,
      due.here, fun starts => node.trans (due.starts starts), ?_, ?_⟩
    · intro removes
      rw [kept thread event member here (Or.inl removes)]
      exact ⟨destroyed (due.removes removes).1, (due.removes removes).2⟩
    · intro completes
      rw [kept thread event member here (Or.inr completes)]
      exact due.completes completes
  · have known : (tport.endpoints.set id after).find event.id = some endpoint := by
      rw [RbTree.find_set, if_neg here]
      exact due.known
    exact ⟨endpoint, at_stream, tstream,
      due.of_same known due.found rfl due.here (fun _ => ⟨rfl, rfl⟩)⟩

/-- An endpoint with other flags, and with other items on user queues that the count of
its references goes with. -/
theorem Sound.setEndpoint (items : List EndpointId)
    (others : ∀ other, other ≠ id → items.count other = tport.items.count other)
    (count : after.mRefCount - items.count id = before.mRefCount - tport.items.count id)
    (ready : after.mReady = true → after.mTportTopic ≠ none)
    (destroyed : before.mDestroyed = true → after.mDestroyed = true)
    (marked : after.mRemoved = true → after.mDestroyed = true)
    (kept : ∀ thread, ∀ event ∈ tport.queues thread, event.id = id →
      event.Removes ∨ event.Completes → after.mRemoved = before.mRemoved) :
    Sound { tport with
      endpoints := tport.endpoints.set id after
      items := items } :=
  { sound with
    freshEndpoints := by
      apply RbTree.forall_set
      · rw [stream]
        exact sound.freshEndpoints id before found
      · exact fun other endpoint _ => sound.freshEndpoints other endpoint
    listed := sound.setEndpoint_listed after found stream topic node
    given := by
      apply RbTree.forall_set
      · rw [stream]
        exact sound.given id before found
      · exact fun other endpoint _ => sound.given other endpoint
    added := by
      apply RbTree.forall_set
      · rw [node]
        exact sound.added id before found
      · exact fun other endpoint _ => sound.added other endpoint
    ready := RbTree.forall_set ready (fun other endpoint _ => sound.ready other endpoint)
    kept := fun other line present => RbTree.isSome_set (sound.kept other line present) id after
    marked := by
      apply RbTree.forall_set
      · rintro (removed | away)
        · exact marked removed
        · exact destroyed (sound.marked id before found (Or.inr away))
      · exact fun other endpoint _ => sound.marked other endpoint
    referred := by
      apply RbTree.forall_set
      · have total := sound.referred id before found
        change after.mRefCount = (if tport.Gone id then 0 else 1) + (items.count id : Int)
        omega
      · intro other endpoint elsewhere old
        change endpoint.mRefCount = (if tport.Gone other then 0 else 1) + (items.count other : Int)
        rw [others other elsewhere]
        exact sound.referred other endpoint old
    queued := by
      intro other member
      by_cases here : other = id
      · rw [here, RbTree.find_set_self]
        rfl
      · apply RbTree.isSome_set
        apply sound.queued other
        rw [← List.count_pos_iff, ← others other here]
        exact List.count_pos_iff.mpr member
    counted := by
      intro other tstream lookup
      rw [sound.counted other tstream lookup, ← waiting_set after found stream node]
      rfl
    events := sound.setEndpoint_events after found stream topic node destroyed kept items
    ordered := fun thread =>
      apart_congr (sound.ordered thread) (fun event _ => streamOf_set after found stream event.id) }

end SetEndpoint

end Tport

end Sbf
