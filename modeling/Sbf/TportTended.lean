import Mathlib.Data.List.Pairwise
import Sbf.EndpointEffects

set_option autoImplicit false

namespace Sbf

open Octets Topics

namespace Tport

variable {H S : Type}

/-- The completion of a stream has failed, or was taken back: nobody on it becomes ready. -/
structure Stuck (tport : Tport H S) (stream : StreamId) (tstream : TportStream S) : Prop where
  unready : tstream.mReady = false
  spent : ∀ thread, ∀ event ∈ tport.queues thread, event.Completes →
    tport.streamOf event.id ≠ some stream

/-- What an endpoint on a stream can count on: until it is on its node, the event for that is
queued; it is ready when the stream is; and when it is destroyed, its remove event is queued, or
is deferred because the stream is not ready. -/
structure Tends (tport : Tport H S) (id : EndpointId) (endpoint : Endpoint) (stream : StreamId)
    (tstream : TportStream S) : Prop where
  starts : endpoint.mTportTopic = none →
    (∃ event ∈ tport.queues tstream.mThread, event.id = id ∧ event.Starts) ∨
      tport.Stuck stream tstream
  ready : tstream.mReady = true → endpoint.mTportTopic ≠ none → endpoint.mReady = true
  marked : endpoint.mRemoved = true →
    tstream.mReady = false ∧ ∀ thread, ∀ event ∈ tport.queues thread, event.id ≠ id
  leaves : endpoint.mDestroyed = true →
    endpoint.mRemoved = true ∨ .remove endpoint.mTopic.mType id ∈ tport.queues tstream.mThread

/-- What holds of streams and endpoints between the steps, beside `Sound`. -/
structure Tended (tport : Tport H S) : Prop where
  used : ∀ stream tstream, tport.streams.find stream = some tstream → tstream.mRefCount ≠ 0
  each : ∀ id endpoint stream tstream, tport.endpoints.find id = some endpoint → ¬ tport.Gone id →
    endpoint.mTportStream = some stream → tport.streams.find stream = some tstream →
      tport.Tends id endpoint stream tstream

theorem new_tended (handler : H) : Tended (Tport.new handler : Tport H S) where
  used _ _ found := by cases found
  each _ _ _ _ found := by cases found

/-- A stream with an endpoint on it has a reference. -/
theorem Sound.used {tport : Tport H S} (sound : Sound tport) {id : EndpointId} {endpoint : Endpoint}
    {stream : StreamId} {tstream : TportStream S} (known : tport.endpoints.find id = some endpoint)
    (here : ¬ tport.Gone id) (given : endpoint.mTportStream = some stream)
    (lookup : tport.streams.find stream = some tstream) : tstream.mRefCount ≠ 0 :=
  fun zero => sound.unreferred lookup zero id endpoint known here given

/-- A stream completes once. -/
theorem Sound.complete_unique {tport : Tport H S} (sound : Sound tport) {thread thread' : Nat}
    {event event' : Event} (member : event ∈ tport.queues thread)
    (member' : event' ∈ tport.queues thread') (completes : event.Completes)
    (completes' : event'.Completes) (same : tport.streamOf event.id = tport.streamOf event'.id) :
    event = event' ∧ thread = thread' := by
  obtain ⟨_, stream, tstream, due⟩ := sound.events thread event member
  obtain ⟨_, stream', tstream', due'⟩ := sound.events thread' event' member'
  obtain rfl := Option.some.inj (due.streamOf.symm.trans (same.trans due'.streamOf))
  obtain rfl := Option.some.inj (due.found.symm.trans due'.found)
  obtain rfl := due.thread.symm.trans due'.thread
  refine ⟨?_, rfl⟩
  by_contra differs
  have ordered : (tport.queues thread).Pairwise (fun first second => first.Completes →
      second.Completes → tport.streamOf first.id ≠ tport.streamOf second.id) :=
    (sound.ordered thread).imp (fun apart first second => apart.completes first.starts second)
  have symmetric : Std.Symm (fun first second : Event => first.Completes →
      second.Completes → tport.streamOf first.id ≠ tport.streamOf second.id) :=
    ⟨fun _ _ apart first second same => apart second first same.symm⟩
  exact ordered.forall member member' differs completes completes' same

section Affects

variable {before after : Tport H S} {id : EndpointId} {stream : StreamId}

theorem Affects.streamOf (affects : Affects id stream before after) {other : EndpointId}
    {at_stream : StreamId} (given : after.streamOf other = some at_stream) :
    before.streamOf other = some at_stream := by
  obtain ⟨endpoint', found', given'⟩ := Option.bind_eq_some_iff.mp given
  by_cases same : other = id
  · subst same
    obtain ⟨endpoint, found, kin⟩ := affects.own endpoint' found'
    exact Option.bind_eq_some_iff.mpr ⟨endpoint, found, kin.stream.symm.trans given'⟩
  · rw [affects.endpoints other same] at found'
    exact Option.bind_eq_some_iff.mpr ⟨endpoint', found', given'⟩

theorem Affects.stuck (affects : Affects id stream before after) {at_stream : StreamId}
    {tstream tstream' : TportStream S} (stuck : before.Stuck at_stream tstream)
    (ready : tstream'.mReady = tstream.mReady) : after.Stuck at_stream tstream' where
  unready := ready.trans stuck.unready
  spent thread event member completes given :=
    stuck.spent thread event ((affects.sublist thread).subset member) completes
      (affects.streamOf given)

/-- The thread of a stream stays. -/
theorem Affects.same_thread (affects : Affects id stream before after) {at_stream : StreamId}
    {tstream tstream' : TportStream S} (lookup : before.streams.find at_stream = some tstream)
    (lookup' : after.streams.find at_stream = some tstream') :
    tstream'.mThread = tstream.mThread := by
  by_cases same : at_stream = stream
  · subst same
    obtain ⟨old, found, thread⟩ := affects.thread tstream' lookup'
    rw [Option.some.inj (lookup.symm.trans found)]
    exact thread
  · rw [affects.streams at_stream same, lookup] at lookup'
    rw [Option.some.inj lookup']

/-- A step for another endpoint. -/
theorem Tends.beside (sound : Sound before) (affects : Affects id stream before after)
    {other : EndpointId} (apart : other ≠ id) {endpoint : Endpoint} {at_stream : StreamId}
    {tstream tstream' : TportStream S} (lookup : before.streams.find at_stream = some tstream)
    (lookup' : after.streams.find at_stream = some tstream')
    (known : before.endpoints.find other = some endpoint)
    (given : endpoint.mTportStream = some at_stream)
    (ready : tstream'.mReady = tstream.mReady)
    (tends : before.Tends other endpoint at_stream tstream) :
    after.Tends other endpoint at_stream tstream' where
  starts waits := by
    have thread := affects.same_thread lookup lookup'
    rcases tends.starts waits with ⟨event, member, own, starts⟩ | stuck
    · by_cases still : event ∈ after.queues tstream.mThread
      · exact .inl ⟨event, thread ▸ still, own, starts⟩
      · -- The completion was taken back.
        rcases affects.kept _ event member (own ▸ apart) with kept | completes
        · exact absurd kept still
        · obtain ⟨_, _, _, due⟩ := sound.events _ event member
          have at_event := due.streamOf
          have here : before.streamOf event.id = some at_stream := by
            rw [Tport.streamOf, own, known, Option.bind_some, given]
          obtain rfl := Option.some.inj (here.symm.trans at_event)
          obtain rfl := Option.some.inj (lookup.symm.trans due.found)
          refine .inr ⟨ready.trans (due.completes completes).2.2, ?_⟩
          intro at_thread event' member' completes' given'
          have old := (affects.sublist at_thread).subset member'
          obtain ⟨rfl, rfl⟩ := sound.complete_unique member old completes completes'
            (here.trans (affects.streamOf given').symm)
          exact still member'
    · exact .inr (affects.stuck stuck ready)
  ready at_ready := tends.ready (ready ▸ at_ready)
  marked removed := by
    obtain ⟨unready, none_left⟩ := tends.marked removed
    exact ⟨ready.trans unready, fun thread event member =>
      none_left thread event ((affects.sublist thread).subset member)⟩
  leaves destroyed := by
    rcases tends.leaves destroyed with removed | member
    · exact .inl removed
    · rcases affects.kept _ _ member apart with kept | completes
      · exact .inr ((affects.same_thread lookup lookup') ▸ kept)
      · exact completes.elim

/-- A step for one endpoint leaves the others tended. -/
theorem Tended.of_affects (tended : Tended before) (sound : Sound before)
    (affects : Affects id stream before after)
    (others : ∀ other endpoint tstream tstream', other ≠ id →
      before.endpoints.find other = some endpoint → ¬ before.Gone other →
      endpoint.mTportStream = some stream → before.streams.find stream = some tstream →
      after.streams.find stream = some tstream' →
        tstream'.mReady = tstream.mReady ∨ after.Tends other endpoint stream tstream')
    (used : ∀ tstream', after.streams.find stream = some tstream' → tstream'.mRefCount ≠ 0)
    (own : ∀ endpoint' at_stream tstream', after.endpoints.find id = some endpoint' →
      ¬ after.Gone id → endpoint'.mTportStream = some at_stream →
      after.streams.find at_stream = some tstream' →
        after.Tends id endpoint' at_stream tstream') : Tended after where
  used at_stream tstream' lookup' := by
    by_cases same : at_stream = stream
    · subst same
      exact used tstream' lookup'
    · rw [affects.streams at_stream same] at lookup'
      exact tended.used at_stream tstream' lookup'
  each other endpoint' at_stream tstream' known' here given lookup' := by
    by_cases apart : other = id
    · subst apart
      exact own endpoint' at_stream tstream' known' here given lookup'
    · rw [affects.endpoints other apart] at known'
      have here' : ¬ before.Gone other := fun away => here ((affects.gone other apart).mpr away)
      by_cases same : at_stream = stream
      · subst same
        obtain ⟨tstream, lookup, -⟩ := affects.thread tstream' lookup'
        rcases others other endpoint' tstream tstream' apart known' here' given lookup lookup' with
          ready | tends
        · exact Tends.beside sound affects apart lookup lookup' known' given ready
            (tended.each other endpoint' at_stream tstream known' here' given lookup)
        · exact tends
      · have lookup := (affects.streams at_stream same).symm.trans lookup'
        exact Tends.beside sound affects apart lookup lookup' known' given rfl
          (tended.each other endpoint' at_stream tstream' known' here' given lookup)

end Affects

/-- What a thread's next event relies on and leaves behind, once it has left its queue. -/
structure Popped (before popped : Tport H S) (thread : Nat) (event : Event) (endpoint : Endpoint)
    (stream : StreamId) (tstream : TportStream S) : Prop where
  first : event ∈ before.queues thread
  affects : Affects event.id stream before popped
  endpoints : popped.endpoints = before.endpoints
  streams : popped.streams = before.streams
  still : ∀ at_thread, ∀ other ∈ before.queues at_thread, other ≠ event →
    other ∈ popped.queues at_thread
  foremost : Foremost popped event
  due : popped.Due thread event endpoint stream tstream
  tends : before.Tends event.id endpoint stream tstream

theorem Tended.pop {before : Tport H S} (tended : Tended before) (sound : Sound before)
    {thread : Nat} {event : Event} {rest : List Event}
    (queue : before.queues thread = event :: rest) :
    ∃ popped : Tport H S, popped = { before with
        queues := fun other => if other = thread then rest else before.queues other } ∧
      ∃ endpoint stream tstream, Popped before popped thread event endpoint stream tstream := by
  obtain ⟨popped, shape, -, foremost, endpoint, stream, tstream, due⟩ := sound.pop queue
  refine ⟨popped, shape, endpoint, stream, tstream, ?_⟩
  have known : before.endpoints.find event.id = some endpoint := by
    have known := due.known
    rwa [shape] at known
  have lookup : before.streams.find stream = some tstream := by
    have found := due.found
    rwa [shape] at found
  have here : ¬ before.Gone event.id := by
    have here := due.here
    rwa [shape] at here
  exact {
    first := by
      rw [queue]
      exact List.mem_cons_self
    affects := by
      rw [shape]
      exact pop_affects queue stream
    endpoints := by rw [shape]
    streams := by rw [shape]
    still := by
      intro at_thread other member differs
      rw [shape]
      dsimp only
      split
      · rename_i same
        rw [same, queue, List.mem_cons] at member
        exact member.resolve_left differs
      · exact member
    foremost := foremost
    due := due
    tends := tended.each _ endpoint stream tstream known here due.given lookup }

section Events

variable {before popped after : Tport H S} {thread : Nat} {event : Event} {endpoint : Endpoint}
  {stream : StreamId} {tstream : TportStream S}
  (pop : Popped before popped thread event endpoint stream tstream)
include pop

/-- An endpoint with an event in a queue has no removal deferred. -/
theorem Popped.unmarked : endpoint.mRemoved = false := by
  cases removed : endpoint.mRemoved with
  | false => rfl
  | true => exact absurd rfl ((pop.tends.marked removed).2 thread event pop.first)

/-- Once the endpoint is on its node, its removal is still to come if it is destroyed. -/
theorem Popped.joined (starts : event.Starts) {tstream' : TportStream S}
    (thread' : tstream'.mThread = tstream.mThread) (affects : Affects event.id stream before after)
    (queues : after.queues = popped.queues) {endpoint' : Endpoint}
    (found : after.endpoints.find event.id = some endpoint')
    (attached : endpoint'.mTportTopic ≠ none) (removed : endpoint'.mRemoved = endpoint.mRemoved)
    (ready : tstream'.mReady = true → endpoint'.mReady = true) :
    after.Tends event.id endpoint' stream tstream' where
  starts waits := absurd waits attached
  ready at_ready _ := ready at_ready
  marked marked := absurd (removed.symm.trans marked) (by simp [pop.unmarked])
  leaves destroyed := by
    obtain ⟨endpoint'', known, kin⟩ := affects.own endpoint' found
    have known' := pop.due.known
    rw [pop.endpoints, known] at known'
    obtain rfl := Option.some.inj known'
    rcases pop.tends.leaves (kin.destroyed ▸ destroyed) with marked | member
    · exact .inl (removed.trans marked)
    · right
      rw [queues, thread', kin.topic]
      apply pop.still _ _ member
      intro same
      rw [← same] at starts
      exact starts

/-- The add event of an endpoint. -/
theorem Tended.add (tended : Tended before) (sound : Sound before) (starts : event.Starts)
    (sound' : Sound after) {type : TopicType}
    (ran : popped.addEventCb type event.id = .ok after) : Tended after := by
  have joined := addEventCb_joined pop.due.known pop.due.given pop.due.found ran
  have affects := pop.affects.trans joined.toAffects
  obtain ⟨endpoint', found, attached, removed, ready⟩ := joined.joined
  have given : endpoint'.mTportStream = some stream := by
    obtain ⟨endpoint'', known, kin⟩ := joined.own endpoint' found
    obtain rfl := Option.some.inj (pop.due.known.symm.trans known)
    exact kin.stream.trans pop.due.given
  have present : ¬ after.Gone event.id := fun away => pop.due.here (joined.present away)
  apply tended.of_affects sound affects
  · intro other endpoint'' old new _ _ _ _ lookup lookup'
    rw [← pop.streams, pop.due.found] at lookup
    obtain rfl := Option.some.inj lookup
    exact .inl (joined.ready new lookup')
  · exact fun tstream' lookup' => sound'.used found present given lookup'
  · intro endpoint'' at_stream tstream' found' _ given' lookup'
    obtain rfl := Option.some.inj (found.symm.trans found')
    obtain rfl := Option.some.inj (given.symm.trans given')
    have thread' := affects.same_thread (pop.streams ▸ pop.due.found) lookup'
    apply pop.joined starts thread' affects joined.queues found attached removed
    rw [joined.ready tstream' lookup']
    exact ready

omit pop in
/-- An event that starts its endpoint stands in front of its removal. -/
theorem Popped.not_behind (removes : event.Removes)
    (pop : Popped before popped thread event endpoint stream tstream) {other : Event}
    (member : other ∈ before.queues tstream.mThread) (own : other.id = event.id)
    (starts : other.Starts) : False := by
  have differs : other ≠ event := by
    intro same
    rw [same] at starts
    exact removes.not_starts starts
  have behind := pop.still _ other member differs
  have apart := pop.foremost _ other behind (by rw [own])
  exact apart.removes removes own.symm

/-- The completion of a stream fails. -/
theorem Tended.fails (tended : Tended before) (sound : Sound before)
    (completes : event.Completes) : Tended popped := by
  apply tended.of_affects sound pop.affects
  · intro other endpoint' old new _ _ _ _ lookup lookup'
    rw [pop.streams, lookup] at lookup'
    exact .inl (congrArg _ (Option.some.inj lookup').symm)
  · intro tstream' lookup'
    rw [pop.streams] at lookup'
    exact tended.used stream tstream' lookup'
  · intro endpoint' at_stream tstream' found' _ given' lookup'
    obtain rfl := Option.some.inj (pop.due.known.symm.trans found')
    obtain rfl := Option.some.inj (pop.due.given.symm.trans given')
    obtain rfl := Option.some.inj (pop.due.found.symm.trans lookup')
    obtain ⟨unmarked, -, unready⟩ := pop.due.completes completes
    have waits := pop.due.starts completes.starts
    exact {
      starts := fun _ => by
        refine .inr ⟨unready, fun at_thread other member completes' same => ?_⟩
        exact (pop.foremost at_thread other member (pop.due.streamOf.trans same.symm)).completes
          completes.starts completes' (pop.due.streamOf.trans same.symm)
      ready := fun _ attached => absurd waits attached
      marked := fun marked => absurd (unmarked.symm.trans marked) Bool.false_ne_true
      leaves := fun destroyed => by
        rcases pop.tends.leaves destroyed with marked | member
        · exact .inl marked
        · apply Or.inr
          apply pop.still _ _ member
          intro same
          rw [← same] at completes
          exact completes }

/-- The removal of an endpoint that is not ready is deferred. -/
theorem Tended.defer (tended : Tended before) (sound : Sound before) (removes : event.Removes)
    (unready : endpoint.mReady = false) :
    Tended { popped with
      endpoints := popped.endpoints.set event.id { endpoint with mRemoved := true } } := by
  have affects : Affects event.id stream before { popped with
      endpoints := popped.endpoints.set event.id { endpoint with mRemoved := true } } :=
    pop.affects.trans (set_affects pop.due.known (by exact ⟨rfl, rfl, rfl⟩) popped.items stream)
  apply tended.of_affects sound affects
  · intro other endpoint' old new _ _ _ _ lookup lookup'
    have lookup' : popped.streams.find stream = some new := lookup'
    rw [pop.streams, lookup] at lookup'
    exact .inl (congrArg _ (Option.some.inj lookup').symm)
  · intro tstream' lookup'
    have lookup' : popped.streams.find stream = some tstream' := lookup'
    rw [pop.streams] at lookup'
    exact tended.used stream tstream' lookup'
  · intro endpoint' at_stream tstream' found' _ given' lookup'
    obtain rfl := Option.some.inj ((RbTree.find_set_self ..).symm.trans found')
    obtain rfl := Option.some.inj (pop.due.given.symm.trans given')
    obtain rfl := Option.some.inj (pop.due.found.symm.trans lookup')
    -- A ready stream would have made the endpoint ready, or would have its add event queued.
    have at_unready : tstream.mReady = false := by
      by_contra ready
      rw [Bool.not_eq_false] at ready
      by_cases waits : endpoint.mTportTopic = none
      · rcases pop.tends.starts waits with ⟨other, member, own, starts⟩ | stuck
        · exact Popped.not_behind removes pop member own starts
        · exact absurd (stuck.unready.symm.trans ready) Bool.false_ne_true
      · exact absurd (unready.symm.trans (pop.tends.ready ready waits)) Bool.false_ne_true
    exact {
      starts := fun waits => by
        rcases pop.tends.starts waits with ⟨other, member, own, starts⟩ | stuck
        · exact (Popped.not_behind removes pop member own starts).elim
        · exact .inr (affects.stuck stuck rfl)
      ready := fun ready => absurd (at_unready.symm.trans ready) Bool.false_ne_true
      marked := fun _ => by
        refine ⟨at_unready, fun at_thread other member own => ?_⟩
        exact (pop.foremost at_thread other member (by rw [own])).removes removes own.symm
      leaves := fun _ => .inl rfl }

variable {config : TportConfig H S}

/-- The removal of an endpoint is carried out. -/
theorem Tended.remove (takes : TakesBack config) (tended : Tended before) (sound : Sound before)
    {type : TopicType} (ran : popped.remove config type event.id endpoint = .ok after) :
    Tended after := by
  have used : tstream.mRefCount ≠ 0 := tended.used stream tstream (pop.streams ▸ pop.due.found)
  obtain ⟨affects, away, stays⟩ := remove_affects takes pop.due.given pop.due.found used ran
  apply tended.of_affects sound (pop.affects.trans affects)
  · intro other endpoint' old new _ _ _ _ lookup lookup'
    rw [← pop.streams, pop.due.found] at lookup
    obtain rfl := Option.some.inj lookup
    exact .inl (stays new lookup').1
  · exact fun tstream' lookup' => (stays tstream' lookup').2
  · exact fun endpoint' at_stream tstream' _ present => absurd away present

/-- Whoever else is on a stream that completes still has its add event queued. -/
theorem Popped.others_wait (sound : Sound before) (completes : event.Completes)
    (affects : Affects event.id stream before after) {other : EndpointId} (apart : other ≠ event.id)
    {endpoint' : Endpoint} {tstream' : TportStream S}
    (found : before.endpoints.find other = some endpoint') (here : ¬ before.Gone other)
    (given : endpoint'.mTportStream = some stream)
    (thread' : tstream'.mThread = tstream.mThread)
    (tends : before.Tends other endpoint' stream tstream) :
    after.Tends other endpoint' stream tstream' := by
  obtain ⟨-, empty, -⟩ := pop.due.completes completes
  have lookup : before.streams.find stream = some tstream := pop.streams ▸ pop.due.found
  have given_first : before.streamOf event.id = some stream := by
    rw [Tport.streamOf, ← pop.endpoints]
    exact pop.due.streamOf
  have waits : endpoint'.mTportTopic = none := by
    cases node : endpoint'.mTportTopic with
    | none => rfl
    | some address =>
        obtain ⟨ttopic, inside, -⟩ := (sound.listed stream tstream lookup address _ _ other).mpr
          ⟨endpoint', found, here, given, node, rfl, rfl⟩
        rw [empty] at inside
        exact absurd inside List.not_mem_nil
  obtain ⟨starter, member, own, starts⟩ : ∃ starter ∈ before.queues tstream.mThread,
      starter.id = other ∧ starter.Starts := by
    rcases tends.starts waits with queued | stuck
    · exact queued
    · exact absurd given_first (stuck.spent thread event pop.first completes)
  have kept : starter ∈ after.queues tstream'.mThread := by
    rw [thread']
    rcases affects.kept _ starter member (own ▸ apart) with kept | completes'
    · exact kept
    · have here' : before.streamOf starter.id = some stream := by
        rw [Tport.streamOf, own, found, Option.bind_some, given]
      obtain ⟨rfl, -⟩ := sound.complete_unique member pop.first completes' completes
        (here'.trans given_first.symm)
      exact absurd own.symm apart
  exact {
    starts := fun _ => .inl ⟨starter, kept, own, starts⟩
    ready := fun _ attached => absurd waits attached
    marked := fun marked => absurd own ((tends.marked marked).2 _ starter member)
    leaves := fun destroyed => by
      rcases tends.leaves destroyed with marked | leaves
      · exact .inl marked
      · rw [thread']
        rcases affects.kept _ _ leaves apart with kept | completes'
        · exact .inr kept
        · exact completes'.elim }

/-- The completion of a stream, for the endpoint that created it. -/
theorem Tended.complete (tended : Tended before) (sound : Sound before)
    (completes : event.Completes) (sound' : Sound after) {type : TopicType}
    (ran : addEventCb type event.id { popped with
      streams := popped.streams.set stream { tstream with mReady := true } } = .ok after) :
    Tended after := by
  have lookup : before.streams.find stream = some tstream := pop.streams ▸ pop.due.found
  have joined := addEventCb_written pop.due.known pop.due.given ran
  have affects := pop.affects.trans
    ((setStream_affects pop.due.found { tstream with mReady := true } rfl event.id).trans
      joined.toAffects)
  obtain ⟨endpoint', found, attached, removed, ready⟩ := joined.joined
  have given : endpoint'.mTportStream = some stream := by
    obtain ⟨endpoint'', known, kin⟩ := joined.own endpoint' found
    obtain rfl := Option.some.inj (pop.due.known.symm.trans known)
    exact kin.stream.trans pop.due.given
  have present : ¬ after.Gone event.id := fun away => pop.due.here (joined.present away)
  apply tended.of_affects sound affects
  · intro other endpoint'' old new apart known here given' lookup' lookup''
    obtain rfl := Option.some.inj (lookup.symm.trans lookup')
    exact .inr (pop.others_wait sound completes affects apart known here given'
      (affects.same_thread lookup lookup'')
      (tended.each other endpoint'' stream tstream known here given' lookup))
  · exact fun tstream' lookup' => sound'.used found present given lookup'
  · intro endpoint'' at_stream tstream' found' _ given' lookup'
    obtain rfl := Option.some.inj (found.symm.trans found')
    obtain rfl := Option.some.inj (given.symm.trans given')
    apply pop.joined completes.starts (affects.same_thread lookup lookup') affects joined.queues
      found attached removed
    exact fun _ => ready rfl

end Events

/-- A reference to an endpoint is dropped, or it is freed. -/
theorem Tended.release {before after : Tport H S} {id : EndpointId} (tended : Tended before)
    (sound : Sound before) (items : List EndpointId)
    (ran : release id { before with items := items } = .ok after) : Tended after := by
  obtain ⟨affects, streams, queues, log, own⟩ := release_affects ran 0
  have streams : after.streams = before.streams := streams
  have queues : after.queues = before.queues := queues
  have affects := (items_affects before items id 0).trans affects
  apply tended.of_affects sound affects
  · intro other endpoint old new _ _ _ _ lookup lookup'
    rw [streams, lookup] at lookup'
    exact .inl (congrArg _ (Option.some.inj lookup').symm)
  · intro tstream' lookup'
    rw [streams] at lookup'
    exact tended.used 0 tstream' lookup'
  · intro endpoint' stream tstream found' here given lookup
    obtain ⟨endpoint, count, found, rfl⟩ := own endpoint' found'
    have here' : ¬ before.Gone id := by
      rwa [Gone, log] at here
    rw [streams] at lookup
    have tends := tended.each id endpoint stream tstream found here' given lookup
    exact {
      starts := fun waits => by
        rw [queues]
        exact (tends.starts waits).imp_right (fun stuck => affects.stuck stuck rfl)
      ready := tends.ready
      marked := fun marked => by
        rw [queues]
        exact tends.marked marked
      leaves := fun destroyed => by
        rw [queues]
        exact tends.leaves destroyed }

/-- A call of the user, which queues an event for one endpoint. -/
structure Grows (id : EndpointId) (before after : Tport H S) : Prop where
  others : ∀ other, other ≠ id → after.endpoints.find other = before.endpoints.find other
  gone : ∀ other, after.Gone other ↔ before.Gone other
  streamOf : ∀ other, (before.endpoints.find other).isSome →
    after.streamOf other = before.streamOf other
  streams : ∀ stream tstream, before.streams.find stream = some tstream → ∃ tstream',
    after.streams.find stream = some tstream' ∧ tstream'.mThread = tstream.mThread ∧
      tstream'.mReady = tstream.mReady
  kept : ∀ thread, ∀ event ∈ before.queues thread, event ∈ after.queues thread
  new : ∀ thread, ∀ event ∈ after.queues thread, event ∈ before.queues thread ∨
    event.id = id ∧ (event.Completes →
      ∀ stream, (before.streams.find stream).isSome → after.streamOf id ≠ some stream)

section Grows

variable {before after : Tport H S} {id : EndpointId} {stream : StreamId}
  {tstream tstream' : TportStream S}

theorem Grows.stuck (grows : Grows id before after) (sound : Sound before)
    (lookup : before.streams.find stream = some tstream)
    (ready : tstream'.mReady = tstream.mReady) (stuck : before.Stuck stream tstream) :
    after.Stuck stream tstream' where
  unready := ready.trans stuck.unready
  spent thread event member completes given := by
    rcases grows.new thread event member with old | ⟨own, elsewhere⟩
    · obtain ⟨endpoint, _, _, due⟩ := sound.events thread event old
      rw [grows.streamOf event.id (by rw [due.known]; rfl)] at given
      exact stuck.spent thread event old completes given
    · exact elsewhere completes stream (by rw [lookup]; rfl) (own ▸ given)

/-- Another endpoint, while the user calls. -/
theorem Tends.grows (grows : Grows id before after) (sound : Sound before) {other : EndpointId}
    (apart : other ≠ id) {endpoint : Endpoint}
    (lookup : before.streams.find stream = some tstream)
    (lookup' : after.streams.find stream = some tstream')
    (tends : before.Tends other endpoint stream tstream) :
    after.Tends other endpoint stream tstream' := by
  obtain ⟨tstream'', found, thread, ready⟩ := grows.streams stream tstream lookup
  obtain rfl := Option.some.inj (lookup'.symm.trans found)
  exact {
    starts := fun waits => by
      rcases tends.starts waits with ⟨event, member, own, starts⟩ | stuck
      · exact .inl ⟨event, thread ▸ grows.kept _ event member, own, starts⟩
      · exact .inr (grows.stuck sound lookup ready stuck)
    ready := fun at_ready => tends.ready (ready ▸ at_ready)
    marked := fun marked => by
      obtain ⟨unready, none_left⟩ := tends.marked marked
      refine ⟨ready.trans unready, fun at_thread event member own => ?_⟩
      rcases grows.new at_thread event member with old | ⟨own', -⟩
      · exact none_left at_thread event old own
      · exact apart (own.symm.trans own')
    leaves := fun destroyed =>
      (tends.leaves destroyed).imp_right (fun member => thread ▸ grows.kept _ _ member) }

theorem Tended.of_grows (tended : Tended before) (sound : Sound before) (grows : Grows id before after)
    (used : ∀ stream tstream', after.streams.find stream = some tstream' → tstream'.mRefCount ≠ 0)
    (own : ∀ endpoint' stream tstream', after.endpoints.find id = some endpoint' →
      ¬ after.Gone id → endpoint'.mTportStream = some stream →
      after.streams.find stream = some tstream' → after.Tends id endpoint' stream tstream') :
    Tended after where
  used := used
  each other endpoint stream tstream' known here given lookup' := by
    by_cases apart : other = id
    · subst apart
      exact own endpoint stream tstream' known here given lookup'
    · rw [grows.others other apart] at known
      have here' : ¬ before.Gone other := fun away => here ((grows.gone other).mpr away)
      obtain ⟨stream', given', there⟩ := sound.given other endpoint known here'
      obtain rfl := Option.some.inj (given.symm.trans given')
      obtain ⟨tstream, lookup⟩ := Option.isSome_iff_exists.mp there
      exact Tends.grows grows sound apart lookup lookup'
        (tended.each other endpoint stream tstream known here' given lookup)

end Grows

/-- A destroy call does nothing the second time, and queues the removal the first time. -/
theorem destroy_cases {before after : Tport H S} {type : TopicType} {id : EndpointId}
    (ran : destroy type id before = .ok after) : ∃ endpoint,
    before.endpoints.find id = some endpoint ∧
      (endpoint.mDestroyed = true ∧ after = before ∨
        endpoint.mDestroyed = false ∧ ∃ stream tstream, endpoint.mTportStream = some stream ∧
          before.streams.find stream = some tstream ∧ after = { before with
            endpoints := before.endpoints.set id { endpoint with mDestroyed := true } }.enqueueThread
              tstream.mThread [.remove type id]) := by
  obtain ⟨endpoint, read, ran⟩ := bind_ok ran
  refine ⟨endpoint, Heap.find_of_read read, ?_⟩
  split at ran
  · rename_i destroyed
    cases ran
    exact .inl ⟨destroyed, rfl⟩
  · rename_i alive
    obtain ⟨stream, given, ran⟩ := bind_ok ran
    obtain ⟨tstream, read', ran⟩ := bind_ok ran
    cases ran
    exact .inr ⟨Bool.eq_false_iff.mpr alive, stream, tstream, notNull_ok given,
      Heap.find_of_read read', rfl⟩

section Calls

variable {before after : Tport H S} {type : TopicType} {id : EndpointId} {endpoint : Endpoint}
  {stream : StreamId} {tstream : TportStream S}

theorem destroy_grows (found : before.endpoints.find id = some endpoint) (thread : Nat)
    (type : TopicType) : Grows id before ({ before with
      endpoints := before.endpoints.set id { endpoint with mDestroyed := true } }.enqueueThread
        thread [.remove type id]) where
  others other apart := (RbTree.find_set ..).trans (if_neg apart)
  gone _ := Iff.rfl
  streamOf other _ := streamOf_set { endpoint with mDestroyed := true } found rfl other
  streams _ tstream lookup := ⟨tstream, lookup, rfl, rfl⟩
  kept at_thread event member := by
    dsimp only [enqueueThread]
    split
    · rename_i same
      exact List.mem_append_left _ (same ▸ member)
    · exact member
  new at_thread event member := by
    dsimp only [enqueueThread] at member
    split at member
    · rename_i same
      rcases List.mem_append.mp member with old | new
      · exact .inl (same ▸ old)
      · obtain rfl := List.mem_singleton.mp new
        exact .inr ⟨rfl, fun completes => completes.elim⟩
    · exact .inl member

theorem Tended.destroy (tended : Tended before) (sound : Sound before)
    (of_type : ∀ endpoint, before.endpoints.find id = some endpoint → endpoint.mTopic.mType = type)
    (ran : before.destroy type id = .ok after) : Tended after := by
  obtain ⟨endpoint, found, ⟨-, rfl⟩ | ⟨alive, stream, tstream, given, lookup, rfl⟩⟩ :=
    destroy_cases ran
  · exact tended
  · have grows := destroy_grows found tstream.mThread type
    apply tended.of_grows sound grows
    · exact tended.used
    · intro endpoint' stream' tstream' found' here given' lookup'
      obtain rfl := Option.some.inj ((RbTree.find_set_self ..).symm.trans found')
      obtain rfl := Option.some.inj (given.symm.trans given')
      obtain rfl := Option.some.inj (lookup.symm.trans lookup')
      have tends := tended.each id endpoint stream tstream found here given lookup
      exact {
        starts := fun waits => by
          rcases tends.starts waits with ⟨event, member, own, starts⟩ | stuck
          · exact .inl ⟨event, grows.kept _ event member, own, starts⟩
          · exact .inr (grows.stuck sound lookup rfl stuck)
        ready := tends.ready
        marked := fun marked => by
          have destroyed := sound.marked id endpoint found (.inl marked)
          exact absurd (alive.symm.trans destroyed) Bool.false_ne_true
        leaves := fun _ => by
          right
          dsimp only [enqueueThread]
          rw [if_pos rfl, of_type endpoint found]
          exact List.mem_append_right _ (List.mem_singleton_self _) }

/-- A new endpoint, with its first event queued. -/
theorem Tended.enter (tended : Tended before) (sound : Sound before) (sound' : Sound after)
    (event : Event) (absent : before.endpoints.find event.id = none)
    (never : ¬ after.Gone event.id) (starts : event.Starts)
    (endpoints : after.endpoints = before.endpoints.set event.id endpoint)
    (gone : ∀ other, after.Gone other ↔ before.Gone other)
    (given : endpoint.mTportStream = some stream) (waits : endpoint.mTportTopic = none)
    (unmarked : endpoint.mRemoved = false) (alive : endpoint.mDestroyed = false)
    (lookup : after.streams.find stream = some tstream)
    (same : ∀ tstream', before.streams.find stream = some tstream' →
      tstream.mThread = tstream'.mThread ∧ tstream.mReady = tstream'.mReady ∧ ¬ event.Completes)
    (others : ∀ other, other ≠ stream → after.streams.find other = before.streams.find other)
    (queues : ∀ thread, after.queues thread =
      if thread = tstream.mThread then before.queues thread ++ [event] else before.queues thread) :
    Tended after := by
  have found : after.endpoints.find event.id = some endpoint := by
    rw [endpoints, RbTree.find_set_self]
  have grows : Grows event.id before after := {
    others := fun other apart => by rw [endpoints, RbTree.find_set, if_neg apart]
    gone := gone
    streamOf := fun other there => by
      have apart : other ≠ event.id := by
        rintro rfl
        rw [absent] at there
        cases there
      rw [streamOf, streamOf, endpoints, RbTree.find_set, if_neg apart]
    streams := fun at_stream tstream' lookup' => by
      by_cases at_own : at_stream = stream
      · subst at_own
        obtain ⟨thread, ready, -⟩ := same tstream' lookup'
        exact ⟨tstream, lookup, thread, ready⟩
      · exact ⟨tstream', (others at_stream at_own).trans lookup', rfl, rfl⟩
    kept := fun thread event' member => by
      rw [queues]
      split
      · exact List.mem_append_left _ member
      · exact member
    new := fun thread event' member => by
      rw [queues] at member
      split at member
      · rcases List.mem_append.mp member with old | new
        · exact .inl old
        · obtain rfl := List.mem_singleton.mp new
          refine .inr ⟨rfl, fun completes at_stream there given' => ?_⟩
          rw [streamOf, found, Option.bind_some, given] at given'
          obtain rfl := Option.some.inj given'
          obtain ⟨tstream', lookup'⟩ := Option.isSome_iff_exists.mp there
          exact (same tstream' lookup').2.2 completes
      · exact .inl member }
  apply tended.of_grows sound grows
  · intro at_stream tstream' lookup'
    by_cases at_own : at_stream = stream
    · subst at_own
      exact sound'.used found never given lookup'
    · rw [others at_stream at_own] at lookup'
      exact tended.used at_stream tstream' lookup'
  · intro endpoint' at_stream tstream' found' _ given' lookup'
    obtain rfl := Option.some.inj (found.symm.trans found')
    obtain rfl := Option.some.inj (given.symm.trans given')
    obtain rfl := Option.some.inj (lookup.symm.trans lookup')
    exact {
      starts := fun _ => by
        refine .inl ⟨event, ?_, rfl, starts⟩
        rw [queues, if_pos rfl]
        exact List.mem_append_right _ (List.mem_singleton_self _)
      ready := fun _ attached => absurd waits attached
      marked := fun marked => absurd (unmarked.symm.trans marked) Bool.false_ne_true
      leaves := fun destroyed => absurd (alive.symm.trans destroyed) Bool.false_ne_true }

end Calls

end Tport

end Sbf
