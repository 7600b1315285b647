import Sbf.EndpointEntries
import Sbf.StreamMoves

set_option autoImplicit false

namespace Sbf.Tport

open Octets Topics

variable {H S : Type} {config : TportConfig H S}

/-- Whatever is queued for the stream of an event was queued behind the event. -/
def Foremost (tport : Tport H S) (event : Event) : Prop :=
  ∀ thread, ∀ other ∈ tport.queues thread, tport.streamOf event.id = tport.streamOf other.id →
    Apart tport.streamOf event other

/-- An event that a thread takes from its queue. -/
theorem Sound.pop {tport : Tport H S} (sound : Sound tport) {thread : Nat} {event : Event}
    {rest : List Event} (queue : tport.queues thread = event :: rest) :
    ∃ popped : Tport H S, popped = { tport with
        queues := fun other => if other = thread then rest else tport.queues other } ∧
      Sound popped ∧ Foremost popped event ∧
      ∃ endpoint stream tstream, popped.Due thread event endpoint stream tstream := by
  obtain ⟨endpoint, stream, tstream, due⟩ := sound.events thread event (by rw [queue]; simp)
  have ordered := sound.ordered thread
  rw [queue] at ordered
  refine ⟨_, rfl, sound.of_same rfl rfl rfl rfl (fun _ => Iff.rfl) (fun _ => Iff.rfl) ?_, ?_,
    endpoint, stream, tstream, due.of_same due.known due.found rfl due.here (fun _ => ⟨rfl, rfl⟩)⟩
  · intro other
    dsimp only
    split
    · rename_i same
      rw [same, queue]
      exact List.sublist_cons_self _ _
    · exact List.Sublist.refl _
  · intro at_thread other member same
    dsimp only at member
    split at member
    · exact (List.pairwise_cons.mp ordered).1 other member
    · -- Another thread has other streams.
      rename_i elsewhere
      obtain ⟨_, _, _, due'⟩ := sound.events at_thread other member
      obtain rfl := Option.some.inj (due.streamOf.symm.trans (same.trans due'.streamOf))
      obtain rfl := Option.some.inj (due.found.symm.trans due'.found)
      exact absurd (due'.thread.symm.trans due.thread) elsewhere

theorem Foremost.only {tport : Tport H S} {event : Event} (foremost : Foremost tport event)
    (starts : event.Starts) (thread : Nat) (other : Event) (member : other ∈ tport.queues thread)
    (same : other.id = event.id) : other.Removes := by
  have apart := (foremost thread other member (by rw [same])).starts starts
  cases other with
  | remove type id => trivial
  | add type id => exact absurd same.symm (apart trivial)
  | complete type id => exact absurd same.symm (apart trivial)

theorem Foremost.completed {tport : Tport H S} {event : Event} (foremost : Foremost tport event)
    (starts : event.Starts) {stream : StreamId} (given : tport.streamOf event.id = some stream)
    (thread : Nat) (other : Event) (member : other ∈ tport.queues thread)
    (completes : other.Completes) : tport.streamOf other.id ≠ some stream := fun same =>
  (foremost thread other member (given.trans same.symm)).completes starts completes
    (given.trans same.symm)

section AddEvent

variable {tport : Tport H S} (sound : Sound tport) {type : TopicType} {id : EndpointId}
  {endpoint : Endpoint} {stream : StreamId} {tstream : TportStream S}
  (found : tport.endpoints.find id = some endpoint)
  (given : endpoint.mTportStream = some stream)
  (lookup : tport.streams.find stream = some tstream)
  (waits : endpoint.mTportTopic = none) (here : ¬ tport.Gone id)
  (of_type : endpoint.mTopic.mType = type)
  (only : ∀ thread, ∀ event ∈ tport.queues thread, event.id = id → event.Removes)
  (completed : ∀ thread, ∀ event ∈ tport.queues thread, event.Completes →
    tport.streamOf event.id ≠ some stream)
include sound found given lookup waits here of_type only completed

/-- The add event of an endpoint runs through, and does not mark the endpoint. -/
theorem Sound.addEventCb : ∃ next after, tport.addEventCb type id = .ok next ∧ Sound next ∧
    next.endpoints.find id = some after ∧ after.mRemoved = endpoint.mRemoved := by
  have attached := sound.attach found given lookup waits here of_type only completed
  have known : (tport.attach type id endpoint stream tstream).endpoints.find id = some _ :=
    RbTree.find_set_self _ _ _
  simp only [Tport.addEventCb, Heap.read_some found, given, notNull, Heap.read_some lookup, bind,
    Except.bind]
  split
  · obtain ⟨next, after, ran, sound', known', same⟩ :=
      attached.makeReady known (Option.some_ne_none _)
    exact ⟨next, after, ran, sound', known', same⟩
  · exact ⟨_, _, rfl, attached, known, rfl⟩

end AddEvent

/-- The completion of a stream finds no node there, and adds its creator. -/
theorem Sound.addStreamCompleteCb {tport : Tport H S} (sound : Sound tport)
    (config : TportConfig H S) {thread : Nat}
    {type : TopicType} {id : EndpointId} {endpoint : Endpoint} {stream : StreamId}
    {tstream : TportStream S} (foremost : Foremost tport (.complete type id))
    (due : tport.Due thread (.complete type id) endpoint stream tstream) (error : Bool) :
    ∃ next, tport.addStreamCompleteCb config type id error = .ok next ∧ Sound next := by
  have creator : tport.endpoints.find id = some endpoint := due.known
  simp only [Tport.addStreamCompleteCb, Heap.read_some creator, due.given, notNull,
    Heap.read_some due.found, bind, Except.bind]
  split
  · exact ⟨tport, rfl, sound⟩
  · obtain ⟨unmarked, empty, _⟩ := due.completes trivial
    have completed := foremost.completed trivial due.streamOf
    obtain ⟨next, after, ran, sound', known, same⟩ := (sound.setReady due.found completed).addEventCb
      due.known due.given (RbTree.find_set_self _ _ _) (due.starts trivial) due.here due.type
      (foremost.only trivial) completed
    refine ⟨next, ?_, sound'⟩
    simp only [Event.id, Event.type, empty] at ran known
    simp only [empty, List.map_nil, follow, completeCreator, ran, Heap.read_some known, same,
      unmarked, bind, Except.bind, Bool.false_eq_true, ↓reduceIte]
    rfl

/-- The remove event of an endpoint runs through unless it strands somebody. -/
theorem Sound.removeEventCb {tport : Tport H S} (sound : Sound tport)
    (config : TportConfig H S) {thread : Nat}
    {type : TopicType} {id : EndpointId} {endpoint : Endpoint} {stream : StreamId}
    {tstream : TportStream S} (foremost : Foremost tport (.remove type id))
    (due : tport.Due thread (.remove type id) endpoint stream tstream)
    (tidy : endpoint.mReady = true → TidyAt tstream.mTopics type id) :
    ∃ next, tport.removeEventCb config type id = .ok next ∧ Sound next := by
  have only : ∀ thread, ∀ event ∈ tport.queues thread, event.id ≠ id := by
    intro at_thread event member same
    exact (foremost at_thread event member (by rw [same]; rfl)).removes trivial same.symm
  have destroyed := (due.removes trivial).1
  have leaver : tport.endpoints.find id = some endpoint := due.known
  simp only [Tport.removeEventCb, Heap.read_some leaver, bind, Except.bind]
  split
  · refine ⟨_, rfl, sound.setEndpoint { endpoint with mRemoved := true } due.known rfl rfl rfl
      tport.items (fun _ _ => rfl) rfl (sound.ready id endpoint due.known) (fun same => same)
      (fun _ => destroyed) ?_⟩
    intro at_thread event member same
    exact absurd same (only at_thread event member)
  · rename_i ready
    have ready : endpoint.mReady = true := by simpa using ready
    exact sound.remove due.known due.here due.given due.found due.type destroyed only config
      (sound.ready id endpoint due.known ready) (tidy ready)

/-- A call that a program with typed handles can make. -/
def Allowed (tport : Tport H S) : Call → Prop
  | .destroyPub id => ∀ endpoint, tport.endpoints.find id = some endpoint →
      endpoint.mTopic.mType = .pub
  | .destroySub id => ∀ endpoint, tport.endpoints.find id = some endpoint →
      endpoint.mTopic.mType = .sub
  | _ => True

/-- No removal by the next event takes a node from the endpoints of the other kind. -/
def Tidy (tport : Tport H S) : Call → Prop
  | .event thread _ => ∀ type id rest, tport.queues thread = .remove type id :: rest →
      ∀ endpoint stream tstream, tport.endpoints.find id = some endpoint →
        endpoint.mReady = true → endpoint.mTportStream = some stream →
        tport.streams.find stream = some tstream → TidyAt tstream.mTopics type id
  | _ => True

/-- An event of a thread never fails in a tidy step. -/
theorem Sound.callback {tport : Tport H S} (sound : Sound tport) (config : TportConfig H S)
    {thread : Nat} {failed : Bool}
    (tidy : tport.Tidy (.event thread failed)) {event : Event} {rest : List Event}
    (queue : tport.queues thread = event :: rest) :
    ∃ next, callback config failed event { tport with
      queues := fun other => if other = thread then rest else tport.queues other } = .ok next ∧
      Sound next := by
  obtain ⟨popped, shape, sound', foremost, endpoint, stream, tstream, due⟩ := sound.pop queue
  rw [← shape]
  cases event with
  | add type id =>
      obtain ⟨next, _, ran, sound'', _⟩ := sound'.addEventCb due.known due.given due.found
        (due.starts trivial) due.here due.type (foremost.only trivial)
        (foremost.completed trivial due.streamOf)
      cases type <;> exact ⟨next, ran, sound''⟩
  | remove type id =>
      have tidy_at : endpoint.mReady = true → TidyAt tstream.mTopics type id := by
        intro ready
        have known := due.known
        have found := due.found
        rw [shape] at known found
        exact tidy type id rest queue endpoint stream tstream known ready due.given found
      obtain ⟨next, ran, sound''⟩ := sound'.removeEventCb config foremost due tidy_at
      cases type <;> exact ⟨next, ran, sound''⟩
  | complete type id =>
      obtain ⟨next, ran, sound''⟩ := sound'.addStreamCompleteCb config foremost due
        (config.mHandlerTable.mAddComplete failed)
      cases type <;> exact ⟨next, ran, sound''⟩

section Create

variable {tport next : Tport H S} (sound : Sound tport) {type : TopicType} {endpoint : Endpoint}
  (of_type : endpoint.mTopic.mType = type) (waits : endpoint.mTportTopic = none)
  (unready : endpoint.mReady = false) (unmarked : endpoint.mRemoved = false)
  (once : endpoint.mRefCount = 1)
include sound of_type waits unready unmarked once

/-- Finding a stream for a new endpoint may fail; otherwise the endpoint holds one, and
has its first event on its way. -/
theorem Sound.setStream
    (ran : { tport with
      endpoints := tport.endpoints.set tport.fresh endpoint
      fresh := tport.fresh + 1 }.setStream config type tport.fresh = .ok next) : Sound next := by
  obtain ⟨absent, never⟩ := sound.unused
  obtain ⟨endpoint', known, ran⟩ := bind_ok ran
  obtain rfl : endpoint = endpoint' :=
    Option.some.inj ((RbTree.find_set_self _ _ _).symm.trans (Heap.find_of_read known))
  obtain ⟨⟨stream, middle⟩, looked, ran⟩ := bind_ok ran
  obtain ⟨tstream, read, ran⟩ := bind_ok ran
  have held := Except.ok.inj ran
  have found := Heap.find_of_read read
  have given : ∀ stream, ({ endpoint with mTportStream := some stream } : Endpoint).mTportStream =
      some stream := fun _ => rfl
  suffices entered : Sound { middle with
      endpoints := middle.endpoints.set tport.fresh { endpoint with mTportStream := some stream }
      streams := middle.streams.set stream { tstream with mRefCount := tstream.mRefCount + 1 } } by
    rw [← held]
    cases type <;> exact entered.of_same rfl rfl rfl rfl (fun _ => Iff.rfl) (fun _ => Iff.rfl)
      (fun _ => List.Sublist.refl _)
  rcases findStream_cases looked with
    ⟨tstream', known, rfl⟩ | ⟨thread, mHandler, mStream, rfl, rfl⟩
  · obtain rfl := Option.some.inj (found.symm.trans known)
    have own : (Event.add type tport.fresh).id = tport.fresh := rfl
    have started := (sound.skip (Nat.le_succ _)).start absent (Nat.lt_succ_self _) never (given stream)
      waits unready unmarked once found own trivial of_type (fun completes => completes.elim)
    exact started.of_same rfl (by simp only [enqueueThread, RbTree.set_set]) rfl rfl
      (fun _ => Iff.rfl) (fun _ => Iff.rfl) (fun _ => List.Sublist.refl _)
  · obtain rfl := Option.some.inj ((RbTree.find_set_self _ _ _).symm.trans found)
    -- The stream gets the address behind that of the endpoint.
    have opened := sound.newStream (Nat.le_succ tport.fresh) (Nat.lt_succ_self (tport.fresh + 1))
      thread mStream
    have alone : ∀ other, tport.streamOf other ≠ some (tport.fresh + 1) := by
      intro other given
      obtain ⟨endpoint', known, given⟩ := Option.bind_eq_some_iff.mp given
      exact Nat.not_lt_of_le (Nat.le_succ _)
        ((sound.freshEndpoints other endpoint' known).2 _ given)
    have own : (Event.complete type tport.fresh).id = tport.fresh := rfl
    have started := opened.start absent (Nat.lt_succ_of_lt (Nat.lt_succ_self _)) never
      (given (tport.fresh + 1)) waits unready unmarked once (RbTree.find_set_self _ _ _) own trivial
      of_type (fun _ => ⟨rfl, rfl, alone⟩)
    exact started.of_same rfl (by simp only [enqueueThread, RbTree.set_set]) rfl rfl
      (fun _ => Iff.rfl) (fun _ => Iff.rfl) (fun _ => List.Sublist.refl _)

end Create

/-- Making an endpoint may fail, but not leave anything half done. -/
theorem Sound.create {tport next : Tport H S} (sound : Sound tport) {type : TopicType}
    {topic0 : CString} {mReadyCb : Bool} (ran : tport.create config type topic0 mReadyCb = .ok next) :
    Sound next := by
  unfold Tport.create at ran
  split at ran
  · cases ran
    exact sound
  · rename_i topic made
    exact sound.setStream (Topic.create_mType made) rfl rfl rfl rfl ran

/-- The remove event of an endpoint is queued once, behind all its other events. -/
theorem Sound.destroy {tport next : Tport H S} (sound : Sound tport) {type : TopicType}
    {id : EndpointId}
    (of_type : ∀ endpoint, tport.endpoints.find id = some endpoint → endpoint.mTopic.mType = type)
    (ran : tport.destroy type id = .ok next) : Sound next := by
  obtain ⟨endpoint, read, ran⟩ := bind_ok ran
  have found := Heap.find_of_read read
  split at ran
  · cases ran
    exact sound
  · rename_i alive
    obtain ⟨stream, given, ran⟩ := bind_ok ran
    obtain ⟨tstream, read', ran⟩ := bind_ok ran
    cases ran
    have given : endpoint.mTportStream = some stream := notNull_ok given
    have here : ¬ tport.Gone id := fun away => alive (sound.marked id endpoint found (Or.inr away))
    have unmarked : endpoint.mRemoved = false := Bool.eq_false_iff.mpr fun removed =>
      alive (sound.marked id endpoint found (Or.inl removed))
    have due : Due { tport with
        endpoints := tport.endpoints.set id { endpoint with mDestroyed := true } }
        tstream.mThread (.remove type id) { endpoint with mDestroyed := true } stream tstream :=
      ⟨RbTree.find_set_self _ _ _, given, Heap.find_of_read read', rfl, of_type endpoint found, here,
        fun starts => starts.elim, fun _ => ⟨rfl, unmarked⟩, fun completes => completes.elim⟩
    have destroyed := sound.setEndpoint { endpoint with mDestroyed := true } found rfl rfl rfl
      tport.items (fun _ _ => rfl) rfl (sound.ready id endpoint found) (fun _ => rfl) (fun _ => rfl)
      (fun _ _ _ _ _ => rfl)
    refine destroyed.enqueue due ?_
    intro earlier member
    refine ⟨fun _ starts => starts.elim, ?_, fun _ completes => completes.elim⟩
    rintro removes rfl
    obtain ⟨endpoint', _, _, due⟩ := sound.events tstream.mThread earlier member
    obtain rfl := Option.some.inj (found.symm.trans due.known)
    exact alive (due.removes removes).1

/-- A ready callback gives back its reference. -/
theorem Sound.dispatch {tport : Tport H S} (sound : Sound tport) {id : EndpointId}
    (member : id ∈ tport.items) :
    ∃ next out, readyQueueCb id { tport with items := tport.items.erase id } = .ok (next, out) ∧
      Sound next := by
  obtain ⟨endpoint, found⟩ := Option.isSome_iff_exists.mp (sound.queued id member)
  have total := sound.referred id endpoint found
  have positive := List.count_pos_iff.mpr member
  have less : (tport.items.erase id).count id = tport.items.count id - 1 := List.count_erase_self
  have dropped := sound.setEndpoint { endpoint with mRefCount := endpoint.mRefCount - 1 } found rfl
    rfl rfl (tport.items.erase id) (fun other differs => List.count_erase_of_ne differs)
    (by rw [less]; dsimp only; omega) (sound.ready id endpoint found) (fun same => same)
    (sound.marked id endpoint found ∘ Or.inl) (fun _ _ _ _ _ => rfl)
  have last : endpoint.mRefCount - 1 = 0 → tport.Gone id := by
    intro zero
    by_contra here
    rw [if_neg here] at total
    omega
  have found' : ({ tport with items := tport.items.erase id } : Tport H S).endpoints.find id =
      some endpoint := found
  obtain ⟨next, released, sound'⟩ := Sound.release found' dropped last
  refine ⟨next, if endpoint.mDestroyed then [] else [id], ?_, sound'⟩
  simp only [readyQueueCb, Heap.read_some found, released, bind, Except.bind]
  rfl

end Sbf.Tport
