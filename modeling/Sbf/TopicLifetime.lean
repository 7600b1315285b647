import Sbf.EndpointRuns
import Sbf.HandlerStreams
import Sbf.HandlerReceiver

set_option autoImplicit false

namespace Sbf

open Octets

namespace Topics

theorem find_filter {topics : List TportTopic} (sound : Sound topics) {ttopic : TportTopic}
    (member : ttopic ∈ topics) (name : Bytes) :
    find (topics.filter (·.address ≠ ttopic.address)) name =
      if name = ttopic.mTopic.chars then none else find topics name := by
  split
  · rename_i here
    refine List.find?_eq_none.mpr fun other inside => ?_
    obtain ⟨inside, apart⟩ := List.mem_filter.mp inside
    have differs : other ≠ ttopic := fun same => by simp [same] at apart
    simpa [here] using fun same : other.mTopic.chars = ttopic.mTopic.chars =>
      differs (List.inj_on_of_nodup_map sound.names inside member same)
  · rename_i elsewhere
    rw [find, List.find?_filter, find]
    apply List.find?_congr
    intro other inside
    by_cases named : other.mTopic.chars = name
    · have apart : other.address ≠ ttopic.address := fun same => elsewhere (by
        rw [← named, List.inj_on_of_nodup_map sound.addresses inside member same])
      simp [named, apart]
    · simp [named]

variable {topics : List TportTopic} (sound : Sound topics) {ttopic : TportTopic}
  (member : ttopic ∈ topics)
include sound member

/-- Nobody who listens misses a publisher. -/
theorem Implements.unlink_pub (id : EndpointId)
    (sound' : Sound (update topics (ttopic.unlink id .pub))) :
    Implements topics (update topics (ttopic.unlink id .pub)) (receiver topics) := by
  refine ⟨sound', subscribers_update sound ttopic _ member rfl rfl rfl, ?_⟩
  funext name
  rw [receiver, receiver, Handler.listening, Handler.listening,
    find_update sound ttopic (ttopic.unlink id .pub) member rfl rfl]
  by_cases here : name = ttopic.mTopic.chars
  · rw [if_pos here, here, find_of_mem sound.names member, Option.filter_some, Option.filter_some]
    change (if (!ttopic.mSubs.isEmpty) = true then some (ttopic.unlink id .pub) else none).map _ = _
    split <;> rfl
  · rw [if_neg here]

/-- Nobody who listens misses a node without subscriptions. -/
theorem Implements.filter (silent : ttopic.mSubs = [])
    (sound' : Sound (topics.filter (·.address ≠ ttopic.address))) :
    Implements topics (topics.filter (·.address ≠ ttopic.address)) (receiver topics) := by
  refine ⟨sound', ?_, ?_⟩
  · intro name
    simp only [subscribers, find_filter sound member]
    by_cases here : name = ttopic.mTopic.chars
    · simp only [here, ↓reduceIte, find_of_mem sound.names member, silent]
    · simp only [if_neg here]
  · funext name
    simp only [receiver, Handler.listening, find_filter sound member]
    by_cases here : name = ttopic.mTopic.chars
    · simp [here, find_of_mem sound.names member, silent]
    · simp only [if_neg here]

end Topics

namespace Tport

variable {H S : Type} {config : TportConfig H S}

/-- The nodes of a stream; a stream that is gone has none. -/
def topicsOf (tport : Tport H S) (stream : StreamId) : List TportTopic :=
  (tport.streams.find stream).elim [] (·.mTopics)

theorem topicsOf_set (tport : Tport H S) (stream other : StreamId) (tstream : TportStream S) :
    ({ tport with streams := tport.streams.set stream tstream } : Tport H S).topicsOf other =
      if other = stream then tstream.mTopics else tport.topicsOf other := by
  simp only [topicsOf, RbTree.find_set]
  split <;> rfl

/-- An endpoint knows the node it is on, so there is only one. -/
theorem Sound.same_node {tport : Tport H S} (sound : Sound tport) {stream : StreamId}
    {tstream : TportStream S} (lookup : tport.streams.find stream = some tstream)
    {left right : TportTopic} (leftIn : left ∈ tstream.mTopics) (rightIn : right ∈ tstream.mTopics)
    {type : TopicType} {id : EndpointId} (inLeft : id ∈ left.attached type)
    (inRight : id ∈ right.attached type) : left = right := by
  have listed := sound.listed stream tstream lookup
  obtain ⟨endpoint, known, _, _, node, _⟩ :=
    (listed left.address left.mTopic type id).mp ⟨left, leftIn, rfl, rfl, inLeft⟩
  obtain ⟨endpoint', known', _, _, node', _⟩ :=
    (listed right.address right.mTopic type id).mp ⟨right, rightIn, rfl, rfl, inRight⟩
  obtain rfl := Option.some.inj (known.symm.trans known')
  exact List.inj_on_of_nodup_map (sound.nodes stream tstream lookup).addresses leftIn rightIn
    (Option.some.inj (node.symm.trans node'))

/-- The nodes are what the receive path relies on. -/
theorem Sound.topics {tport : Tport H S} (sound : Sound tport) (stream : StreamId) :
    Topics.Sound (tport.topicsOf stream) := by
  unfold topicsOf
  cases lookup : tport.streams.find stream with
  | none => exact ⟨List.nodup_nil, List.nodup_nil, nofun, nofun⟩
  | some tstream =>
      have nodes := sound.nodes stream tstream lookup
      exact ⟨nodes.addresses, nodes.names, fun ttopic inside =>
        ⟨(nodes.linked ttopic inside).distinct .sub, (nodes.linked ttopic inside).next⟩,
        fun left leftIn right rightIn sub inLeft inRight =>
          have on : sub ∈ left.attached .sub := inLeft
          sound.same_node lookup leftIn rightIn on inRight⟩

theorem step_sound {tport next : Tport H S} (sound : Sound tport) {call : Call}
    {out : List EndpointId} (proper : tport.Allowed call ∧ tport.Tidy call)
    (ran : step config call tport = .ok (next, out)) : Sound next := by
  obtain ⟨allowed, tidy⟩ := proper
  cases call with
  | createPub topic0 mReadyCb => exact sound.create (silent_ok ran).1
  | createSub topic0 mReadyCb => exact sound.create (silent_ok ran).1
  | destroyPub id => exact sound.destroy allowed (silent_ok ran).1
  | destroySub id => exact sound.destroy allowed (silent_ok ran).1
  | event thread failed =>
      dsimp only [step] at ran
      split at ran
      · cases ran
        exact sound
      · rename_i event rest queue
        obtain ⟨next', ran', sound'⟩ := sound.callback config tidy queue
        have same := ran'.symm.trans (silent_ok ran).1
        cases same
        exact sound'
  | dispatch id =>
      dsimp only [step] at ran
      split at ran
      · rename_i member
        obtain ⟨next', out', ran', sound'⟩ := sound.dispatch member
        cases ran'.symm.trans ran
        exact sound'
      · cases ran
        exact sound

section Effects

variable {tport next : Tport H S} {stream : StreamId} {tstream : TportStream S} {address : Nat}

theorem removeTopic_topics (lookup : tport.streams.find stream = some tstream)
    (ran : tport.removeTopic config stream address = .ok next) (other : StreamId) :
    next.topicsOf other = if other = stream then tstream.mTopics.filter (·.address ≠ address)
      else tport.topicsOf other := by
  obtain ⟨tstream', read, ran⟩ := bind_ok ran
  obtain rfl := Option.some.inj (lookup.symm.trans (Heap.find_of_read read))
  obtain ⟨⟨empty, after⟩, removed, ran⟩ := bind_ok ran
  simp only [TportStream.removeTopic] at removed
  split at removed
  · cases removed
  · rename_i fits
    cases removed
    dsimp only at ran
    split at ran
    · -- The stream goes with its last node.
      rename_i zero
      have none_left : tstream.mTopics.filter (·.address ≠ address) = [] := by
        by_contra more
        exact fits ⟨zero.2, more⟩
      obtain ⟨tstream', _, ran⟩ := bind_ok ran
      cases ran
      simp only [topicsOf, log, deleteEvents, RbTree.find_erase, RbTree.find_set, none_left]
      split <;> rfl
    · cases ran
      rw [topicsOf_set]

theorem leaveTopic_topics (lookup : tport.streams.find stream = some tstream)
    {left : List EndpointId} (ran : tport.leaveTopic config stream address left = .ok next)
    (other : StreamId) :
    next.topicsOf other = if other = stream then
        if left = [] then tstream.mTopics.filter (·.address ≠ address) else tstream.mTopics
      else tport.topicsOf other := by
  unfold leaveTopic at ran
  split at ran
  · rename_i last
    rw [removeTopic_topics lookup ran, if_pos last]
  · rename_i stays
    cases ran
    rw [if_neg stays]
    split
    · rename_i here
      rw [here, topicsOf, lookup]
      rfl
    · rfl

/-- A removal unlinks an endpoint from a node, and takes the node away with the last
endpoint of that kind. -/
theorem remove_topics {type : TopicType} {id : EndpointId} {endpoint : Endpoint}
    (ran : tport.remove config type id endpoint = .ok next) :
    ∃ stream tstream, endpoint.mTportStream = some stream ∧
      tport.streams.find stream = some tstream ∧
      ∃ ttopic ∈ tstream.mTopics, id ∈ ttopic.attached type ∧
        ∀ other, next.topicsOf other = if other = stream then
            if (ttopic.attached type).erase id = [] then
              tstream.mTopics.filter (·.address ≠ ttopic.address)
            else Topics.update tstream.mTopics (ttopic.unlink id type)
          else tport.topicsOf other := by
  obtain ⟨stream, given, ran⟩ := bind_ok ran
  obtain ⟨tstream, read, ran⟩ := bind_ok ran
  obtain ⟨address, node, ran⟩ := bind_ok ran
  obtain ⟨ttopic, found, ran⟩ := bind_ok ran
  have lookup := Heap.find_of_read read
  obtain ⟨member, rfl⟩ := TportStream.topicAt_ok found
  split at ran
  · cases ran
  · rename_i on
    obtain ⟨middle, left, ran⟩ := bind_ok ran
    refine ⟨stream, tstream, notNull_ok given, lookup, ttopic, member, not_not.mp on, ?_⟩
    intro other
    have same : next.topicsOf other = middle.topicsOf other := by
      rw [topicsOf, topicsOf, release_streams ran]
    have detached : (tport.detach type id endpoint stream tstream ttopic).streams.find stream =
        some { tstream with mTopics := Topics.update tstream.mTopics (ttopic.unlink id type) } := by
      cases type <;> exact RbTree.find_set_self _ _ _
    rw [same, leaveTopic_topics detached left, TportTopic.attached_unlink, if_pos rfl]
    split
    · split
      · simpa only [TportTopic.unlink_address] using
          Topics.filter_update tstream.mTopics (ttopic.unlink id type)
      · rfl
    · rename_i elsewhere
      have apart : (tport.detach type id endpoint stream tstream ttopic).topicsOf other =
          ({ tport with streams := tport.streams.set stream { tstream with
            mTopics := Topics.update tstream.mTopics (ttopic.unlink id type) } } :
              Tport H S).topicsOf other := by
        cases type <;> rfl
      rw [apart, topicsOf_set, if_neg elsewhere]

/-- What has been added and not been removed elsewhere stays where it points to. -/
structure Spares (id : EndpointId) (before after : Tport H S) : Prop where
  endpoints : ∀ other, other ≠ id → after.endpoints.find other = before.endpoints.find other
  added : ∀ other, other ≠ id → (after.Added other ↔ before.Added other)
  gone : ∀ other, other ≠ id → (after.Gone other ↔ before.Gone other)

theorem Spares.refl (id : EndpointId) (tport : Tport H S) : Spares id tport tport :=
  ⟨fun _ _ => rfl, fun _ _ => Iff.rfl, fun _ _ => Iff.rfl⟩

theorem Spares.trans {id : EndpointId} {first second third : Tport H S}
    (one : Spares id first second) (two : Spares id second third) : Spares id first third :=
  ⟨fun other differs => (two.endpoints other differs).trans (one.endpoints other differs),
    fun other differs => (two.added other differs).trans (one.added other differs),
    fun other differs => (two.gone other differs).trans (one.gone other differs)⟩

theorem removeTopic_spares (id : EndpointId)
    (ran : tport.removeTopic config stream address = .ok next) : Spares id tport next := by
  obtain ⟨_, _, ran⟩ := bind_ok ran
  obtain ⟨_, _, ran⟩ := bind_ok ran
  dsimp only at ran
  split at ran
  · obtain ⟨_, _, ran⟩ := bind_ok ran
    cases ran
    exact ⟨fun _ _ => rfl, by simp [Added, log, deleteEvents], by simp [Gone, log, deleteEvents]⟩
  · cases ran
    exact ⟨fun _ _ => rfl, fun _ _ => Iff.rfl, fun _ _ => Iff.rfl⟩

theorem release_spares {id : EndpointId} (ran : tport.release id = .ok next) :
    Spares id tport next := by
  obtain ⟨_, _, ran⟩ := bind_ok ran
  dsimp only at ran
  split at ran
  · cases ran
    exact ⟨fun other differs => by rw [RbTree.find_erase, if_neg differs], fun _ _ => Iff.rfl,
      fun _ _ => Iff.rfl⟩
  · cases ran
    exact ⟨fun other differs => by rw [RbTree.find_set, if_neg differs], fun _ _ => Iff.rfl,
      fun _ _ => Iff.rfl⟩

/-- The removal of an endpoint does not touch the others themselves. -/
theorem remove_spares {type : TopicType} {id : EndpointId} {endpoint : Endpoint}
    (ran : tport.remove config type id endpoint = .ok next) : Spares id tport next := by
  obtain ⟨stream, _, ran⟩ := bind_ok ran
  obtain ⟨tstream, _, ran⟩ := bind_ok ran
  obtain ⟨address, _, ran⟩ := bind_ok ran
  obtain ⟨ttopic, _, ran⟩ := bind_ok ran
  split at ran
  · cases ran
  · obtain ⟨middle, left, ran⟩ := bind_ok ran
    have detached : Spares id tport (tport.detach type id endpoint stream tstream ttopic) := by
      cases type <;> exact ⟨fun _ _ => rfl, by simp [Added, detach, log, adjustWeight],
        fun other differs => by simp [Gone, detach, log, adjustWeight, differs]⟩
    refine (detached.trans ?_).trans (release_spares ran)
    unfold leaveTopic at left
    split at left
    · exact removeTopic_spares id left
    · cases left
      exact .refl id _

end Effects

/-- Taking the last publisher off a topic, or any other, nobody who listens misses. -/
theorem Sound.remove_pub {tport next : Tport H S} (sound : Sound tport) (sound' : Sound next)
    {id : EndpointId} {endpoint : Endpoint}
    (tidy : ∀ stream tstream, endpoint.mTportStream = some stream →
      tport.streams.find stream = some tstream → TidyAt tstream.mTopics .pub id)
    (ran : tport.remove config .pub id endpoint = .ok next) (stream : StreamId) :
    Topics.Implements (tport.topicsOf stream) (next.topicsOf stream)
      (Topics.receiver (tport.topicsOf stream)) := by
  obtain ⟨left, tstream, given, lookup, ttopic, member, on, topics⟩ := remove_topics ran
  have after := topics stream
  by_cases here : stream = left
  · subst here
    have before : tport.topicsOf stream = tstream.mTopics := by rw [topicsOf, lookup]; rfl
    have kept := sound'.topics stream
    have old := sound.topics stream
    rw [if_pos rfl] at after
    rw [after] at kept ⊢
    rw [before] at old ⊢
    split at kept
    · rename_i last
      rw [if_pos last]
      have silent : ttopic.mSubs = [] := tidy stream tstream given lookup ttopic member
        (Topics.only_of_erase on last) .sub (by decide)
      exact .filter old member silent kept
    · rename_i stays
      rw [if_neg stays]
      exact .unlink_pub old member id kept
  · rw [if_neg here] at after
    rw [after]
    exact .refl (sound.topics stream)

/-- An endpoint is on a list of a node that is on its stream, where its pointer leads. -/
def Attached (tport : Tport H S) (id : EndpointId) : Prop :=
  ∃ endpoint stream tstream, tport.endpoints.find id = some endpoint ∧
    endpoint.mTportStream = some stream ∧ tport.streams.find stream = some tstream ∧
    ∃ ttopic ∈ tstream.mTopics, endpoint.mTportTopic = some ttopic.address ∧
      ttopic.mTopic = endpoint.mTopic.mTopic ∧ id ∈ ttopic.attached endpoint.mTopic.mType

theorem Sound.attached {tport : Tport H S} (sound : Sound tport) {id : EndpointId}
    (added : tport.Added id) (here : ¬ tport.Gone id) : tport.Attached id := by
  obtain ⟨endpoint, known⟩ := Option.isSome_iff_exists.mp (sound.kept id added here)
  obtain ⟨stream, given, there⟩ := sound.given id endpoint known here
  obtain ⟨tstream, lookup⟩ := Option.isSome_iff_exists.mp there
  obtain ⟨address, node⟩ := Option.ne_none_iff_exists'.mp ((sound.added id endpoint known).mp added)
  obtain ⟨ttopic, member, rfl, named, on⟩ := (sound.listed stream tstream lookup _ _ _ id).mpr
    ⟨endpoint, known, here, given, node, rfl, rfl⟩
  exact ⟨endpoint, stream, tstream, known, given, lookup, ttopic, member, node, named, on⟩

/-- Everybody who has been added and not been removed is attached. -/
def AllAttached (tport : Tport H S) : Prop :=
  ∀ id, tport.Added id → ¬ tport.Gone id → tport.Attached id

/-- A removal that keeps everybody attached has not taken a node from anybody. -/
theorem Sound.tidyAt {tport next : Tport H S} (sound : Sound tport) {type : TopicType}
    {id : EndpointId} {endpoint : Endpoint} {stream : StreamId} {tstream : TportStream S}
    (known : tport.endpoints.find id = some endpoint) (of_type : endpoint.mTopic.mType = type)
    (given : endpoint.mTportStream = some stream)
    (lookup : tport.streams.find stream = some tstream)
    (ran : tport.remove config type id endpoint = .ok next) (kept : next.AllAttached) :
    TidyAt tstream.mTopics type id := by
  intro ttopic member only at_type differs
  by_contra some_left
  obtain ⟨other, on⟩ := List.exists_mem_of_ne_nil _ some_left
  have listed := sound.listed stream tstream lookup
  obtain ⟨endpoint', known', here, given', node', typed, _⟩ :=
    (listed ttopic.address ttopic.mTopic at_type other).mp ⟨ttopic, member, rfl, rfl, on⟩
  have apart : other ≠ id := by
    rintro rfl
    obtain rfl := Option.some.inj (known.symm.trans known')
    exact differs (typed.symm.trans of_type)
  have spares := remove_spares ran
  -- The other endpoint still points to the node, which is the one that has gone.
  have added : tport.Added other := (sound.added other endpoint' known').mpr (by simp [node'])
  obtain ⟨endpoint'', stream'', tstream'', known'', given'', lookup'', found, inside, node'', _⟩ :=
    kept other ((spares.added other apart).mpr added) (mt (spares.gone other apart).mp here)
  rw [spares.endpoints other apart, known'] at known''
  obtain rfl := Option.some.inj known''
  obtain rfl := Option.some.inj (given'.symm.trans given'')
  obtain ⟨_, _, same, lookup', left, member', on', topics⟩ := remove_topics ran
  obtain rfl := Option.some.inj (given.symm.trans same)
  obtain rfl := Option.some.inj (lookup.symm.trans lookup')
  obtain rfl := sound.same_node lookup member member' (by rw [only]; simp) on'
  have after := topics stream
  rw [if_pos rfl, only, if_pos (by simp), topicsOf, lookup''] at after
  change tstream''.mTopics = _ at after
  rw [after] at inside
  have away := (List.mem_filter.mp inside).2
  rw [Option.some.inj (node''.symm.trans node')] at away
  simp at away

theorem removeEventCb_ready {tport : Tport H S} {type : TopicType} {id : EndpointId}
    {endpoint : Endpoint} (known : tport.endpoints.find id = some endpoint)
    (ready : endpoint.mReady = true) :
    tport.removeEventCb config type id = tport.remove config type id endpoint := by
  simp only [removeEventCb, Heap.read_some known, ready, bind, Except.bind, Bool.not_true,
    Bool.false_eq_true, ↓reduceIte]

/-- A remove event, after it has been taken from its queue. -/
theorem Sound.event_remove {tport next : Tport H S} (sound : Sound tport) {thread : Nat}
    {failed : Bool} {type : TopicType} {id : EndpointId} {rest : List Event} {out : List EndpointId}
    (queue : tport.queues thread = .remove type id :: rest)
    (ran : step config (.event thread failed) tport = .ok (next, out)) :
    ∃ popped : Tport H S, Sound popped ∧ popped.endpoints = tport.endpoints ∧
      popped.streams = tport.streams ∧
      (∀ endpoint, tport.endpoints.find id = some endpoint → endpoint.mTopic.mType = type) ∧
      popped.removeEventCb config type id = .ok next := by
  obtain ⟨popped, shape, popped_sound, _, endpoint, stream, tstream, due⟩ := sound.pop queue
  simp only [step, queue] at ran
  rw [← shape] at ran
  refine ⟨popped, popped_sound, by rw [shape], by rw [shape], ?_, ?_⟩
  · intro endpoint' known'
    have known := due.known
    rw [shape] at known
    obtain rfl := Option.some.inj (known.symm.trans known')
    exact due.type
  · cases type <;> exact (silent_ok ran).1

/-- A run of calls that a program can make, each removal in it tidy. -/
def AllTidy (config : TportConfig H S) : Tport H S → List Call → Prop :=
  Step.Along (step config) (fun tport call => tport.Allowed call ∧ tport.Tidy call)

/-- Whatever publishers and subscriptions come and go in whatever order, as long as no
removal empties a list of a node while there is somebody on the other: everybody who has
been added and not been removed is on a node of the stream. The next event of a thread
does not fail then, and keeps that exactly if it is tidy; and nobody who listens notices
that a publisher has been removed. -/
theorem run_attached (config : TportConfig H S) (mHandler : H) (calls : List Call)
    (tidy : AllTidy config (.new mHandler) calls) (tport : Tport H S) (out : List EndpointId)
    (ran : run config calls (.new mHandler) = .ok (tport, out)) :
    tport.AllAttached ∧
    ∀ thread failed,
      (tport.Tidy (.event thread failed) →
        ∃ next, step config (.event thread failed) tport = .ok (next, [])) ∧
      ∀ next, step config (.event thread failed) tport = .ok (next, []) →
        (next.AllAttached ↔ tport.Tidy (.event thread failed)) ∧
        (tport.Tidy (.event thread failed) →
          ∀ id rest, tport.queues thread = .remove .pub id :: rest → ∀ stream,
            Topics.Implements (tport.topicsOf stream) (next.topicsOf stream)
              (Topics.receiver (tport.topicsOf stream))) := by
  have sound : Sound tport :=
    tidy.keeps (fun before proper ran => step_sound before proper ran) (new_sound mHandler) ran
  refine ⟨fun id => sound.attached, fun thread failed => ⟨?_, ?_⟩⟩
  · intro tidy
    cases queue : tport.queues thread with
    | nil => exact ⟨tport, by simp only [step, queue]⟩
    | cons event events =>
        obtain ⟨next, ran, _⟩ := sound.callback config tidy queue
        exact ⟨next, by simp only [step, queue, ran]; rfl⟩
  · intro next ran
    refine ⟨⟨?_, ?_⟩, ?_⟩
    · intro kept type id rest queue endpoint stream tstream known ready given lookup
      obtain ⟨popped, popped_sound, endpoints, streams, due, ran⟩ := sound.event_remove queue ran
      rw [removeEventCb_ready (by rw [endpoints]; exact known) ready] at ran
      exact popped_sound.tidyAt (by rw [endpoints]; exact known) (due endpoint known) given
        (by rw [streams]; exact lookup) ran kept
    · intro tidy id
      have proper : tport.Allowed (.event thread failed) := trivial
      exact (step_sound sound ⟨proper, tidy⟩ ran).attached
    · intro tidy id rest queue stream
      have proper : tport.Allowed (.event thread failed) := trivial
      have sound' := step_sound sound ⟨proper, tidy⟩ ran
      obtain ⟨popped, popped_sound, endpoints, streams, _, ran⟩ := sound.event_remove queue ran
      have same : tport.topicsOf stream = popped.topicsOf stream := by
        rw [topicsOf, topicsOf, streams]
      rw [same]
      obtain ⟨endpoint, read, ran⟩ := bind_ok ran
      split at ran
      · cases ran
        exact .refl (popped_sound.topics stream)
      · rename_i ready
        refine popped_sound.remove_pub sound' ?_ ran stream
        intro at_stream tstream given lookup
        have known := Heap.find_of_read read
        rw [endpoints] at known
        rw [streams] at lookup
        exact tidy .pub id rest queue endpoint at_stream tstream known (by simpa using ready) given
          lookup

instance (topics : List TportTopic) (type : TopicType) (id : EndpointId) :
    Decidable (TidyAt topics type id) :=
  decidable_of_iff (∀ ttopic ∈ topics, ttopic.attached type = [id] →
      ∀ other ∈ [TopicType.pub, TopicType.sub], other ≠ type → ttopic.attached other = [])
    (forall₂_congr fun _ _ => forall_congr' fun _ => forall_congr' fun other => by
      cases other <;> simp)

instance (tport : Tport H S) : ∀ call, Decidable (tport.Allowed call)
  | .destroyPub id => inferInstanceAs (Decidable (∀ endpoint ∈ tport.endpoints.find id, _ = _))
  | .destroySub id => inferInstanceAs (Decidable (∀ endpoint ∈ tport.endpoints.find id, _ = _))
  | .createPub _ _ | .createSub _ _ | .event _ _ | .dispatch _ => inferInstanceAs (Decidable True)

theorem tidy_iff (tport : Tport H S) (thread : Nat) (failed : Bool) :
    tport.Tidy (.event thread failed) ↔ ∀ event ∈ (tport.queues thread).head?, event.Removes →
      ∀ endpoint ∈ tport.endpoints.find event.id, endpoint.mReady = true →
        ∀ stream ∈ endpoint.mTportStream, ∀ tstream ∈ tport.streams.find stream,
          TidyAt tstream.mTopics event.type event.id := by
  constructor
  · rintro tidy (_ | ⟨type, id⟩ | _) first removes endpoint known ready stream given tstream lookup
    · exact removes.elim
    · obtain ⟨rest, queue⟩ := List.head?_eq_some_iff.mp first
      exact tidy type id rest queue endpoint stream tstream known ready given lookup
    · exact removes.elim
  · intro each type id rest queue endpoint stream tstream known ready given lookup
    exact each (.remove type id) (by rw [queue]; rfl) trivial endpoint known ready stream given
      tstream lookup

instance : ∀ event : Event, Decidable event.Removes
  | .remove _ _ => isTrue trivial
  | .add _ _ | .complete _ _ => isFalse not_false

instance (tport : Tport H S) : ∀ call, Decidable (tport.Tidy call)
  | .event thread failed => decidable_of_iff _ (tidy_iff tport thread failed).symm
  | .createPub _ _ | .createSub _ _ | .destroyPub _ | .destroySub _ | .dispatch _ =>
      inferInstanceAs (Decidable True)

instance (config : TportConfig H S) (tport : Tport H S) (calls : List Call) :
    Decidable (AllTidy config tport calls) :=
  inferInstanceAs (Decidable (Step.Along _ _ _ _))

/-- Two subscriptions and a publisher, and one of the subscriptions leaves. -/
def oneLeaves : List Call :=
  [.createSub ticks true, .createSub ticks false, .createPub ticks true, .event 0 false,
    .event 0 false, .event 0 false, .destroySub 0, .event 0 false]

/-- A subscription and a publisher, and the subscription leaves. -/
def onlyLeaves : List Call :=
  [.createSub ticks true, .createPub ticks true, .event 0 false, .event 0 false, .destroySub 0,
    .event 0 false]

theorem run_attached_oneLeaves : ∃ tport out,
    run TcpMeshHandler.oneThread oneLeaves (.new ⟨none⟩) = .ok (tport, out) ∧ tport.Gone 0 ∧
      tport.Attached 2 ∧ tport.Attached 3 := by
  obtain ⟨tport, out, ran, ⟨gone, ⟨added, here⟩, added', here'⟩⟩ : ∃ tport out,
      run TcpMeshHandler.oneThread oneLeaves (.new ⟨none⟩) = .ok (tport, out) ∧ tport.Gone 0 ∧
        (tport.Added 2 ∧ ¬ tport.Gone 2) ∧ tport.Added 3 ∧ ¬ tport.Gone 3 := by
    decide +kernel
  have attached := (run_attached TcpMeshHandler.oneThread ⟨none⟩ oneLeaves (by decide +kernel)
    tport out ran).1
  exact ⟨tport, out, ran, gone, attached 2 added here, attached 3 added' here'⟩

/-- The publisher stays behind on a node that has gone, and the stream with it. -/
theorem run_strands :
    Step.Along (step TcpMeshHandler.oneThread) Allowed (.new ⟨none⟩) onlyLeaves ∧
    ∃ tport out, run TcpMeshHandler.oneThread onlyLeaves (.new ⟨none⟩) = .ok (tport, out) ∧
      tport.Added 2 ∧ ¬ tport.Gone 2 ∧ ¬ tport.Attached 2 := by
  refine ⟨by decide +kernel, ?_⟩
  obtain ⟨tport, out, ran, added, here, given, freed⟩ : ∃ tport out,
      run TcpMeshHandler.oneThread onlyLeaves (.new ⟨none⟩) = .ok (tport, out) ∧
        tport.Added 2 ∧ ¬ tport.Gone 2 ∧ tport.streamOf 2 = some 1 ∧
          (tport.streams.find 1).isSome = false := by
    decide +kernel
  refine ⟨tport, out, ran, added, here, ?_⟩
  rintro ⟨endpoint, stream, tstream, known, at_stream, lookup, _⟩
  rw [streamOf, known, Option.bind_some, at_stream] at given
  rw [← Option.some.inj given, lookup] at freed
  cases freed

end Tport

end Sbf
