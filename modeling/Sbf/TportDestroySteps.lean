import Sbf.TportDestroy
import Sbf.TportTendedSteps

set_option autoImplicit false

namespace Sbf

open Octets Topics

/-- The endpoint goes when its remove event runs. -/
structure Endpoint.Leaving (endpoint : Endpoint) : Prop where
  attached : endpoint.mTportTopic ≠ none
  ready : endpoint.mReady = true
  unmarked : endpoint.mRemoved = false
  destroyed : endpoint.mDestroyed = true

namespace Tport

variable {H S : Type} {config : TportConfig H S} {before after : Tport H S}

/-- The transport lists the streams that there are. -/
structure Listed (tport : Tport H S) : Prop where
  nodup : tport.mStreams.Nodup
  listed : ∀ stream, stream ∈ tport.mStreams ↔ (tport.handlerStream stream).isSome
  known : ∀ stream, (tport.handlerStream stream).isSome → stream < tport.fresh

theorem new_listed (handler : H) : Listed (Tport.new handler : Tport H S) where
  nodup := List.nodup_nil
  listed _ := iff_of_false List.not_mem_nil Bool.false_ne_true
  known _ found := by cases found

theorem Listed.still (listed : Listed before) (same : Still before after) : Listed after where
  nodup := by
    rw [same.listed]
    exact listed.nodup
  listed := by
    rw [same.listed, same.streams]
    exact listed.listed
  known := by
    rw [same.streams]
    exact fun stream found => Nat.lt_of_lt_of_le (listed.known stream found) same.fresh

theorem Listed.move (listed : Listed before) (move : Move config.mHandlerTable before after) :
    Listed after := by
  cases move with
  | still same => exact listed.still same
  | added type topic thread id closure mStream events absent handler names streams _ unused fresh =>
      have new : id ∉ before.mStreams := fun member =>
        Nat.not_lt_of_le unused (listed.known id ((listed.listed id).mp member))
      constructor
      · rw [names]
        exact List.Nodup.append listed.nodup (List.nodup_singleton id) (by simpa using new)
      · intro stream
        rw [names, streams, List.mem_append, List.mem_singleton]
        split
        · rename_i here
          exact iff_of_true (.inr here) rfl
        · rename_i apart
          rw [or_iff_left apart]
          exact listed.listed stream
      · intro stream found
        rw [streams] at found
        split at found
        · rename_i here
          rw [here]
          exact fresh
        · exact Nat.lt_trans (Nat.lt_of_lt_of_le (listed.known stream found) unused) fresh
  | removed id mStream found handler names streams _ fresh =>
      constructor
      · rw [names]
        exact listed.nodup.erase id
      · intro stream
        rw [names, streams, listed.nodup.mem_erase_iff]
        split
        · rename_i here
          exact iff_of_false (fun both => both.1 here) Bool.false_ne_true
        · rename_i apart
          rw [listed.listed]
          exact and_iff_right apart
      · intro stream found
        rw [streams] at found
        split at found
        · cases found
        · exact Nat.lt_of_lt_of_le (listed.known stream found) fresh

theorem Listed.moves (listed : Listed before) (moves : Moves config.mHandlerTable before after) :
    Listed after := by
  induction moves with
  | refl => exact listed
  | tail _ move ih => exact ih.move move

theorem Listed.found {tport : Tport H S} (listed : Listed tport) {stream : StreamId} :
    stream ∈ tport.mStreams ↔ ∃ tstream, tport.streams.find stream = some tstream := by
  rw [listed.listed, handlerStream, Option.isSome_map, Option.isSome_iff_exists]

/-- A stream with a reference has an endpoint on it. -/
theorem Sound.occupied_stream {tport : Tport H S} (sound : Sound tport) {stream : StreamId}
    {tstream : TportStream S} (lookup : tport.streams.find stream = some tstream)
    (used : tstream.mRefCount ≠ 0) : ∃ id endpoint, tport.endpoints.find id = some endpoint ∧
      ¬ tport.Gone id ∧ endpoint.mTportStream = some stream := by
  by_cases empty : tstream.mTopics = []
  · have total := sound.counted stream tstream lookup
    rw [empty, List.length_nil] at total
    by_contra nobody
    have none_waits : tport.waiting stream = 0 := by
      apply RbTree.count_eq_zero
      intro id endpoint found
      by_contra waits
      have waits : endpoint.mTportStream = some stream ∧ endpoint.mTportTopic = none := by
        simpa [Endpoint.waits] using waits
      have here : ¬ tport.Gone id := fun away =>
        (sound.added id endpoint found).mp (sound.gone id away) waits.2
      exact nobody ⟨id, endpoint, found, here, waits.1⟩
    rw [none_waits] at total
    exact used total
  · obtain ⟨ttopic, member⟩ := List.exists_mem_of_ne_nil _ empty
    obtain ⟨type, some_on⟩ := sound.occupied stream tstream lookup ttopic member
    obtain ⟨id, on⟩ := List.exists_mem_of_ne_nil _ some_on
    obtain ⟨endpoint, found, here, given, -⟩ :=
      (sound.listed stream tstream lookup ttopic.address ttopic.mTopic type id).mp
        ⟨ttopic, member, rfl, rfl, on⟩
    exact ⟨id, endpoint, found, here, given⟩

/-- An endpoint that is still found later. -/
structure Remains (before after : Tport H S) (id : EndpointId) (endpoint endpoint' : Endpoint) :
    Prop where
  topic : endpoint'.mTopic = endpoint.mTopic
  stream : endpoint'.mTportStream = endpoint.mTportStream
  destroyed : endpoint.mDestroyed = true → endpoint'.mDestroyed = true
  gone : before.Gone id → after.Gone id
  leaving : ¬ after.Gone id → endpoint.Leaving → endpoint'.Leaving

/-- What the steps do to a transport on which nothing new is made. -/
structure Ebbs (before after : Tport H S) : Prop where
  streams : ∀ stream tstream', after.streams.find stream = some tstream' → ∃ tstream,
    before.streams.find stream = some tstream ∧ tstream'.mThread = tstream.mThread
  queues : ∀ thread, ∃ more, (after.queues thread).Sublist (before.queues thread ++ more) ∧
    ∀ event ∈ more, event.Removes ∧ ∃ endpoint,
      before.endpoints.find event.id = some endpoint ∧ endpoint.mDestroyed = false
  endpoints : ∀ id endpoint', after.endpoints.find id = some endpoint' → ∃ endpoint,
    before.endpoints.find id = some endpoint ∧ Remains before after id endpoint endpoint'

theorem Ebbs.refl (tport : Tport H S) : Ebbs tport tport where
  streams _ tstream lookup := ⟨tstream, lookup, rfl⟩
  queues _ := ⟨[], List.sublist_append_left _ _, fun _ member => absurd member List.not_mem_nil⟩
  endpoints _ endpoint found :=
    ⟨endpoint, found, rfl, rfl, fun same => same, fun same => same, fun _ same => same⟩

theorem Ebbs.trans {first second third : Tport H S} (one : Ebbs first second)
    (two : Ebbs second third) : Ebbs first third where
  streams stream tstream'' lookup'' := by
    obtain ⟨tstream', lookup', same'⟩ := two.streams stream tstream'' lookup''
    obtain ⟨tstream, lookup, same⟩ := one.streams stream tstream' lookup'
    exact ⟨tstream, lookup, same'.trans same⟩
  queues thread := by
    obtain ⟨more, sub, new⟩ := one.queues thread
    obtain ⟨more', sub', new'⟩ := two.queues thread
    refine ⟨more ++ more', ?_, fun event member => ?_⟩
    · rw [← List.append_assoc]
      exact sub'.trans (sub.append_right more')
    · rcases List.mem_append.mp member with early | late
      · exact new event early
      · obtain ⟨removes, endpoint', found', alive'⟩ := new' event late
        obtain ⟨endpoint, found, remains⟩ := one.endpoints event.id endpoint' found'
        refine ⟨removes, endpoint, found, Bool.eq_false_iff.mpr fun destroyed => ?_⟩
        exact absurd (alive'.symm.trans (remains.destroyed destroyed)) Bool.false_ne_true
  endpoints id endpoint'' found'' := by
    obtain ⟨endpoint', found', remains'⟩ := two.endpoints id endpoint'' found''
    obtain ⟨endpoint, found, remains⟩ := one.endpoints id endpoint' found'
    exact ⟨endpoint, found, {
      topic := remains'.topic.trans remains.topic
      stream := remains'.stream.trans remains.stream
      destroyed := fun destroyed => remains'.destroyed (remains.destroyed destroyed)
      gone := fun away => remains'.gone (remains.gone away)
      leaving := fun here leaving =>
        remains'.leaving here (remains.leaving (mt remains'.gone here) leaving) }⟩

/-- The next event of a thread. -/
theorem Runs.ebbs {thread : Nat} {event : Event} {endpoint : Endpoint} {stream at_stream : StreamId}
    {tstream : TportStream S} (due : before.Due thread event endpoint stream tstream)
    (runs : Runs event at_stream before after) : Ebbs before after where
  streams other tstream' lookup' := by
    by_cases same : other = at_stream
    · subst same
      exact runs.thread tstream' lookup'
    · exact ⟨tstream', (runs.streams other same).symm.trans lookup', rfl⟩
  queues thread := by
    refine ⟨[], ?_, fun _ member => absurd member List.not_mem_nil⟩
    rw [List.append_nil]
    exact runs.sublist thread
  endpoints id endpoint' found' := by
    by_cases same : id = event.id
    · subst same
      obtain ⟨endpoint'', found, kin⟩ := runs.own endpoint' found'
      obtain rfl := Option.some.inj (due.known.symm.trans found)
      refine ⟨endpoint, found, kin.topic, kin.stream, fun destroyed => ?_, runs.left, ?_⟩
      · exact kin.destroyed.trans destroyed
      · -- An event of a leaving endpoint is its remove event.
        intro here leaving
        have removes : event.Removes := by
          cases event with
          | remove type id => trivial
          | add type id => exact absurd (due.starts trivial) leaving.attached
          | complete type id => exact absurd (due.starts trivial) leaving.attached
        exact absurd (runs.removes removes endpoint found leaving.ready) here
    · exact ⟨endpoint', (runs.endpoints id same).symm.trans found', rfl, rfl, fun same => same,
        (runs.gone id same).mpr, fun _ same => same⟩

theorem destroy_ebbs {type : TopicType} {id : EndpointId} (ran : destroy type id before = .ok after) :
    Ebbs before after := by
  obtain ⟨endpoint, found, ⟨-, rfl⟩ | ⟨alive, stream, tstream, given, lookup, rfl⟩⟩ :=
    destroy_cases ran
  · exact .refl _
  · constructor
    · exact fun _ tstream' lookup' => ⟨tstream', lookup', rfl⟩
    · intro thread
      by_cases same : thread = tstream.mThread
      · refine ⟨[.remove type id], ?_, fun event member => ?_⟩
        · dsimp only [enqueueThread]
          rw [if_pos same, same]
        · obtain rfl := List.mem_singleton.mp member
          exact ⟨trivial, endpoint, found, alive⟩
      · refine ⟨[], ?_, fun _ member => absurd member List.not_mem_nil⟩
        dsimp only [enqueueThread]
        rw [if_neg same]
        exact List.sublist_append_left _ _
    · intro other endpoint' found'
      have found' : (before.endpoints.set id { endpoint with mDestroyed := true }).find other =
          some endpoint' := found'
      by_cases same : other = id
      · subst same
        obtain rfl := Option.some.inj ((RbTree.find_set_self ..).symm.trans found')
        exact ⟨endpoint, found, rfl, rfl, fun _ => rfl, fun same => same, fun _ leaving =>
          ⟨leaving.attached, leaving.ready, leaving.unmarked, rfl⟩⟩
      · rw [RbTree.find_set, if_neg same] at found'
        exact ⟨endpoint', found', rfl, rfl, fun same => same, fun same => same, fun _ same => same⟩

/-- A reference to an endpoint is dropped. -/
theorem release_ebbs {id : EndpointId} (items : List EndpointId)
    (ran : release id { before with items := items } = .ok after) : Ebbs before after := by
  obtain ⟨affects, streams, queues, log, own⟩ := release_affects ran 0
  constructor
  · intro stream tstream' lookup'
    rw [streams] at lookup'
    exact ⟨tstream', lookup', rfl⟩
  · intro thread
    rw [queues]
    exact (Ebbs.refl before).queues thread
  · intro other endpoint' found'
    by_cases same : other = id
    · subst same
      obtain ⟨endpoint, count, found, rfl⟩ := own endpoint' found'
      exact ⟨endpoint, found, rfl, rfl, fun same => same, affects.left, fun _ leaving =>
        ⟨leaving.attached, leaving.ready, leaving.unmarked, leaving.destroyed⟩⟩
    · exact ⟨endpoint', (affects.endpoints other same).symm.trans found', rfl, rfl,
        fun same => same, (affects.gone other same).mpr, fun _ same => same⟩

theorem event_ebbs (takes : TakesBack config) (tended : Tended before) (sound : Sound before)
    (sound' : Sound after) {thread : Nat} {failed : Bool} {out : List EndpointId}
    (ran : step config (.event thread failed) before = .ok (after, out)) : Ebbs before after := by
  dsimp only [step] at ran
  split at ran
  · cases ran
    exact .refl _
  · rename_i event rest queue
    obtain ⟨endpoint, stream, tstream, due⟩ := sound.events thread event (by rw [queue]; simp)
    obtain ⟨at_stream, runs⟩ := tended.runs takes sound sound' queue (silent_ok ran).1
    exact runs.ebbs due

theorem dispatch_ebbs {id : EndpointId} {out : List EndpointId}
    (ran : step config (.dispatch id) before = .ok (after, out)) : Ebbs before after := by
  dsimp only [step] at ran
  split at ran
  · obtain ⟨endpoint, _, ran⟩ := bind_ok ran
    obtain ⟨middle, released, ran⟩ := bind_ok ran
    cases ran
    exact release_ebbs _ released
  · cases ran
    exact .refl _

theorem destroy_streams {type : TopicType} {id : EndpointId}
    (ran : destroy type id before = .ok after) : after.streams = before.streams := by
  obtain ⟨endpoint, found, ⟨-, rfl⟩ | ⟨alive, stream, tstream, given, lookup, rfl⟩⟩ :=
    destroy_cases ran
  · rfl
  · rfl

theorem destroy_destroyed {type : TopicType} {id : EndpointId}
    (ran : destroy type id before = .ok after) (endpoint' : Endpoint)
    (found' : after.endpoints.find id = some endpoint') : endpoint'.mDestroyed = true := by
  obtain ⟨endpoint, found, ⟨destroyed, rfl⟩ | ⟨alive, stream, tstream, given, lookup, rfl⟩⟩ :=
    destroy_cases ran
  · obtain rfl := Option.some.inj (found.symm.trans found')
    exact destroyed
  · obtain rfl := Option.some.inj ((RbTree.find_set_self ..).symm.trans found')
    rfl

/-- The endpoints of a list are destroyed. -/
structure Destroys (endpoints : List (TopicType × EndpointId)) (before after : Tport H S) : Prop where
  sound : Sound after
  tended : Tended after
  ebbs : Ebbs before after
  still : Still before after
  streams : after.streams = before.streams
  destroyed : ∀ entry ∈ endpoints, ∀ endpoint, after.endpoints.find entry.2 = some endpoint →
    endpoint.mDestroyed = true

theorem destroyEndpoints_destroys {endpoints : List (TopicType × EndpointId)}
    (sound : Sound before) (tended : Tended before)
    (typed : ∀ entry ∈ endpoints, ∀ endpoint, before.endpoints.find entry.2 = some endpoint →
      endpoint.mTopic.mType = entry.1)
    (ran : TportDestroy.destroyEndpoints endpoints before = .ok after) :
    Destroys endpoints before after := by
  induction endpoints generalizing before with
  | nil =>
      cases ran
      exact ⟨sound, tended, .refl _, .refl _, rfl, fun _ member => absurd member List.not_mem_nil⟩
  | cons entry rest ih =>
      obtain ⟨type, id⟩ := entry
      obtain ⟨middle, first, ran⟩ := bind_ok ran
      have of_type := typed (type, id) List.mem_cons_self
      have ebbs := destroy_ebbs first
      have later : Destroys rest middle after := by
        apply ih (sound.destroy of_type first) (tended.destroy sound of_type first) _ ran
        intro entry member endpoint' found'
        obtain ⟨endpoint, found, remains⟩ := ebbs.endpoints entry.2 endpoint' found'
        rw [remains.topic]
        exact typed entry (List.mem_cons_of_mem _ member) endpoint found
      refine ⟨later.sound, later.tended, ebbs.trans later.ebbs,
        (destroy_still first).trans later.still, later.streams.trans (destroy_streams first), ?_⟩
      intro entry member endpoint'' found''
      rcases List.mem_cons.mp member with rfl | member
      · obtain ⟨endpoint', found', remains⟩ := later.ebbs.endpoints id endpoint'' found''
        exact remains.destroyed (destroy_destroyed first endpoint' found')
      · exact later.destroyed entry member endpoint'' found''

/-- The endpoints on the nodes of a stream. -/
theorem Sound.endpointsOn {tport : Tport H S} (sound : Sound tport) {stream : StreamId}
    {tstream : TportStream S} (lookup : tport.streams.find stream = some tstream)
    (type : TopicType) (id : EndpointId) :
    (type, id) ∈ TportDestroy.endpointsOn tstream.mTopics ↔
      ∃ endpoint, tport.endpoints.find id = some endpoint ∧ ¬ tport.Gone id ∧
        endpoint.mTportStream = some stream ∧ endpoint.mTportTopic ≠ none ∧
        endpoint.mTopic.mType = type := by
  have on : (type, id) ∈ TportDestroy.endpointsOn tstream.mTopics ↔
      ∃ ttopic ∈ tstream.mTopics, id ∈ ttopic.attached type := by
    cases type <;> simp [TportDestroy.endpointsOn, TportTopic.attached]
  rw [on]
  constructor
  · rintro ⟨ttopic, member, on⟩
    obtain ⟨endpoint, found, here, given, node, of_type, -⟩ :=
      (sound.listed stream tstream lookup ttopic.address ttopic.mTopic type id).mp
        ⟨ttopic, member, rfl, rfl, on⟩
    exact ⟨endpoint, found, here, given, by simp [node], of_type⟩
  · rintro ⟨endpoint, found, here, given, attached, of_type⟩
    obtain ⟨address, node⟩ := Option.ne_none_iff_exists'.mp attached
    obtain ⟨ttopic, member, -, -, on⟩ :=
      (sound.listed stream tstream lookup address endpoint.mTopic.mTopic type id).mpr
        ⟨endpoint, found, here, given, node, of_type, rfl⟩
    exact ⟨ttopic, member, on⟩

end Tport

/-- A callback that is queued for a stream, between the events of its thread. Behind it there are
removals only. When it is the second, whoever is still on the stream has its removal before it. -/
structure DestroyStreamClosure.Fits {H S : Type} (closure : DestroyStreamClosure)
    (tport : Tport H S) : Prop where
  thread : ∀ tstream, tport.streams.find closure.mTportStream = some tstream →
    tstream.mThread = closure.mThread
  order : (tport.queues closure.mThread).Pairwise (fun first second =>
    second ∈ closure.ahead → first ∈ closure.ahead)
  behind : ∀ event ∈ tport.queues closure.mThread, event ∉ closure.ahead → event.Removes
  ahead : ∀ event ∈ closure.ahead, event.Removes → ∀ endpoint,
    tport.endpoints.find event.id = some endpoint → endpoint.mDestroyed = true
  leaving : closure.second = true → ∀ id endpoint, tport.endpoints.find id = some endpoint →
    ¬ tport.Gone id → endpoint.mTportStream = some closure.mTportStream →
      endpoint.Leaving ∧ .remove endpoint.mTopic.mType id ∈ closure.ahead

namespace DestroyStreamClosure

variable {H S : Type} {closure : DestroyStreamClosure} {before after : Tport H S}

theorem Fits.ebbs (fits : closure.Fits before) (ebbs : Tport.Ebbs before after) :
    closure.Fits after := by
  obtain ⟨more, sub, new⟩ := ebbs.queues closure.mThread
  have apart : ∀ event ∈ more, event ∉ closure.ahead := by
    intro event member early
    obtain ⟨removes, endpoint, found, alive⟩ := new event member
    exact absurd (alive.symm.trans (fits.ahead event early removes endpoint found))
      Bool.false_ne_true
  constructor
  · intro tstream' lookup'
    obtain ⟨tstream, lookup, same⟩ := ebbs.streams _ tstream' lookup'
    exact same.trans (fits.thread tstream lookup)
  · apply List.Pairwise.sublist sub
    refine List.pairwise_append.mpr ⟨fits.order, ?_, ?_⟩
    · exact List.pairwise_of_forall_mem_list fun _ _ event member early =>
        absurd early (apart event member)
    · exact fun _ _ event member early => absurd early (apart event member)
  · intro event member late
    rcases List.mem_append.mp (sub.subset member) with old | fresh
    · exact fits.behind event old late
    · exact (new event fresh).1
  · intro event early removes endpoint' found'
    obtain ⟨endpoint, found, remains⟩ := ebbs.endpoints event.id endpoint' found'
    exact remains.destroyed (fits.ahead event early removes endpoint found)
  · intro second id endpoint' found' here' given'
    obtain ⟨endpoint, found, remains⟩ := ebbs.endpoints id endpoint' found'
    obtain ⟨leaving, early⟩ := fits.leaving second id endpoint found (mt remains.gone here')
      (remains.stream.symm.trans given')
    refine ⟨remains.leaving here' leaving, ?_⟩
    rw [remains.topic]
    exact early

/-- When no event is left before a callback, there are only removals behind it. -/
theorem Fits.late (fits : closure.Fits before)
    (head : ∀ event ∈ (before.queues closure.mThread).head?, event ∉ closure.ahead) :
    ∀ event ∈ before.queues closure.mThread, event ∉ closure.ahead := by
  intro event member early
  have order := fits.order
  cases queue : before.queues closure.mThread with
  | nil =>
      rw [queue] at member
      exact List.not_mem_nil member
  | cons first rest =>
      rw [queue] at member order head
      apply head first rfl
      rcases List.mem_cons.mp member with rfl | behind
      · exact early
      · exact (List.pairwise_cons.mp order).1 event behind early

/-- The first callback has destroyed whoever is on its stream, which is ready. -/
theorem Fits.first (fits : closure.Fits before)
    (late : ∀ event ∈ before.queues closure.mThread, event ∉ closure.ahead)
    {tstream : TportStream S} (lookup : before.streams.find closure.mTportStream = some tstream)
    (ready : tstream.mReady = true)
    (destroys : Tport.Destroys (TportDestroy.endpointsOn tstream.mTopics) before after) :
    { closure with second := true, ahead := after.queues closure.mThread }.Fits after := by
  obtain ⟨sound, tended, ebbs, -, streams, destroyed⟩ := destroys
  have removes : ∀ event ∈ after.queues closure.mThread, event.Removes := by
    intro event member
    obtain ⟨more, sub, new⟩ := ebbs.queues closure.mThread
    rcases List.mem_append.mp (sub.subset member) with old | fresh
    · exact fits.behind event old (late event old)
    · exact (new event fresh).1
  rw [← streams] at lookup
  have thread := (fits.ebbs ebbs).thread tstream lookup
  constructor
  · exact (fits.ebbs ebbs).thread
  · exact List.pairwise_of_forall_mem_list fun _ member _ _ _ => member
  · exact fun event member apart => absurd member apart
  · intro event member at_removes endpoint found
    obtain ⟨endpoint', _, _, due⟩ := sound.events _ event member
    obtain rfl := Option.some.inj (found.symm.trans due.known)
    exact (due.removes at_removes).1
  · intro _ id endpoint found here given
    have tends := tended.each id endpoint closure.mTportStream tstream found here given lookup
    -- Its add event has run, on a stream that was ready then or has become so.
    have attached : endpoint.mTportTopic ≠ none := by
      intro waits
      rcases tends.starts waits with ⟨event, member, -, starts⟩ | stuck
      · rw [thread] at member
        exact (removes event member).not_starts starts
      · exact absurd (stuck.unready.symm.trans ready) Bool.false_ne_true
    have unmarked : endpoint.mRemoved = false := by
      rw [Bool.eq_false_iff]
      intro marked
      exact absurd ((tends.marked marked).1.symm.trans ready) Bool.false_ne_true
    have gone : endpoint.mDestroyed = true :=
      destroyed (endpoint.mTopic.mType, id)
        ((sound.endpointsOn lookup _ id).mpr ⟨endpoint, found, here, given, attached, rfl⟩)
        endpoint found
    refine ⟨⟨attached, tends.ready ready attached, unmarked, gone⟩, ?_⟩
    rcases tends.leaves gone with marked | member
    · exact absurd (unmarked.symm.trans marked) Bool.false_ne_true
    · rw [thread] at member
      exact member

/-- Before the second callback the stream goes. -/
theorem Fits.second (fits : closure.Fits before) (second : closure.second = true)
    (late : ∀ event ∈ before.queues closure.mThread, event ∉ closure.ahead)
    (sound : Tport.Sound before) (tended : Tport.Tended before) :
    before.streams.find closure.mTportStream = none := by
  rw [Option.eq_none_iff_forall_ne_some]
  intro tstream lookup
  have used := tended.used _ tstream lookup
  obtain ⟨id, endpoint, found, here, given⟩ := sound.occupied_stream lookup used
  obtain ⟨leaving, early⟩ := fits.leaving second id endpoint found here given
  have tends := tended.each id endpoint _ tstream found here given lookup
  rcases tends.leaves leaving.destroyed with marked | member
  · exact absurd (leaving.unmarked.symm.trans marked) Bool.false_ne_true
  · rw [fits.thread tstream lookup] at member
    exact late _ member early

end DestroyStreamClosure

end Sbf
