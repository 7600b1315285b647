import Sbf.TportTended

set_option autoImplicit false

namespace Sbf.Tport

open Octets Topics

variable {H S : Type} {config : TportConfig H S} {before after : Tport H S}

theorem hold_eq (tport : Tport H S) (type : TopicType) (id : EndpointId) (endpoint : Endpoint)
    (stream : StreamId) (tstream : TportStream S) :
    ∃ weights, tport.hold type id endpoint stream tstream = { tport with
      mWeights := weights
      endpoints := tport.endpoints.set id { endpoint with mTportStream := some stream }
      streams := tport.streams.set stream { tstream with mRefCount := tstream.mRefCount + 1 } } := by
  cases type <;> exact ⟨_, rfl⟩

/-- A new endpoint has an add event queued, or the completion of a stream of its own. -/
theorem Tended.create (tended : Tended before) (sound : Sound before) (sound' : Sound after)
    {type : TopicType} {topic0 : CString} {mReadyCb : Bool}
    (ran : before.create config type topic0 mReadyCb = .ok after) : Tended after := by
  unfold Tport.create at ran
  split at ran
  · cases ran
    exact tended
  · rename_i topic made
    dsimp only at ran
    have absent := sound.unused.1
    have never : ¬ before.Gone before.fresh := fun line =>
      Nat.lt_irrefl _ (sound.freshLines before.fresh (.inr line))
    obtain ⟨endpoint, known, ran⟩ := bind_ok ran
    obtain rfl := Option.some.inj ((RbTree.find_set_self ..).symm.trans (Heap.find_of_read known))
    obtain ⟨⟨stream, middle⟩, looked, ran⟩ := bind_ok ran
    obtain ⟨tstream, read, ran⟩ := bind_ok ran
    have found := Heap.find_of_read read
    obtain ⟨weights, held⟩ := middle.hold_eq type before.fresh _ stream tstream
    obtain rfl := held.symm.trans (Except.ok.inj ran)
    rcases findStream_cases looked with
      ⟨tstream', known, rfl⟩ | ⟨thread, mHandler, mStream, rfl, rfl⟩
    · obtain rfl := Option.some.inj (found.symm.trans known)
      apply tended.enter sound sound' (.add type before.fresh) absent never trivial
        (RbTree.set_set ..) (fun _ => Iff.rfl) rfl rfl rfl rfl (RbTree.find_set_self ..)
      · intro tstream' lookup
        obtain rfl := Option.some.inj (found.symm.trans lookup)
        exact ⟨rfl, rfl, fun completes => completes⟩
      · exact fun other apart => (RbTree.find_set ..).trans (if_neg apart)
      · intro thread
        dsimp only [enqueueThread]
        split
        · rename_i same
          rw [same]
        · rfl
    · obtain rfl := Option.some.inj ((RbTree.find_set_self ..).symm.trans found)
      apply tended.enter sound sound' (.complete type before.fresh) absent never trivial
        (RbTree.set_set ..) (fun _ => Iff.rfl) rfl rfl rfl rfl (RbTree.find_set_self ..)
      · -- The address is new.
        intro tstream' lookup
        have known := (sound.freshStreams _ tstream' lookup).1
        exact absurd known (Nat.not_lt_of_le (Nat.le_succ _))
      · intro other apart
        rw [RbTree.find_set, if_neg apart]
        exact (RbTree.find_set ..).trans (if_neg apart)
      · intro at_thread
        dsimp only [enqueueThread]
        split
        · rename_i same
          rw [same]
        · rfl

/-- A completion without an error finds no node, and puts its creator on one. -/
theorem addStreamCompleteCb_inv {thread : Nat} {type : TopicType} {id : EndpointId} {error : Bool}
    {endpoint : Endpoint} {stream : StreamId} {tstream : TportStream S}
    (due : before.Due thread (.complete type id) endpoint stream tstream)
    (ran : before.addStreamCompleteCb config type id error = .ok after) :
    after = before ∨ addEventCb type id { before with
      streams := before.streams.set stream { tstream with mReady := true } } = .ok after := by
  have creator : before.endpoints.find id = some endpoint := due.known
  obtain ⟨unmarked, empty, -⟩ := due.completes trivial
  obtain ⟨endpoint', read, ran⟩ := bind_ok ran
  obtain rfl := Option.some.inj (creator.symm.trans (Heap.find_of_read read))
  obtain ⟨stream', given, ran⟩ := bind_ok ran
  obtain rfl := Option.some.inj (due.given.symm.trans (notNull_ok given))
  obtain ⟨tstream', read', ran⟩ := bind_ok ran
  obtain rfl := Option.some.inj (due.found.symm.trans (Heap.find_of_read read'))
  split at ran
  · cases ran
    exact .inl rfl
  · obtain ⟨middle, followed, ran⟩ := bind_ok ran
    have nodes : tstream.mTopics.map (·.address) = [] := by
      rw [empty]
      rfl
    rw [nodes] at followed
    cases followed
    obtain ⟨joined, added, ran⟩ := bind_ok ran
    right
    rw [added]
    obtain ⟨endpoint'', read'', ran⟩ := bind_ok ran
    have joining := addEventCb_written creator due.given added
    obtain ⟨_, known, _, removed, _⟩ := joining.joined
    obtain rfl := Option.some.inj (known.symm.trans (Heap.find_of_read read''))
    rw [removed, unmarked] at ran
    exact ran

/-- What the next event of a thread does, beside that everybody stays tended. -/
structure Runs (event : Event) (stream : StreamId) (before after : Tport H S) : Prop
    extends Affects event.id stream before after where
  tended : Tended after
  removes : event.Removes → ∀ endpoint, before.endpoints.find event.id = some endpoint →
    endpoint.mReady = true → after.Gone event.id

theorem Runs.of_affects {event : Event} {stream : StreamId} (tended : Tended after)
    (affects : Affects event.id stream before after) (stays : ¬ event.Removes) :
    Runs event stream before after := ⟨affects, tended, fun removes => absurd removes stays⟩

theorem Tended.runs (takes : TakesBack config) (tended : Tended before) (sound : Sound before)
    (sound' : Sound after) {thread : Nat} {failed : Bool} {event : Event} {rest : List Event}
    (queue : before.queues thread = event :: rest)
    (ran : callback config failed event { before with
      queues := fun other => if other = thread then rest else before.queues other } = .ok after) :
    ∃ stream, Runs event stream before after := by
  obtain ⟨popped, shape, endpoint, stream, tstream, pop⟩ := tended.pop sound queue
  rw [← shape] at ran
  refine ⟨stream, ?_⟩
  cases event with
  | add type id =>
      have ran : popped.addEventCb type id = .ok after := by
        cases type <;> exact ran
      have joined := addEventCb_joined pop.due.known pop.due.given pop.due.found ran
      exact .of_affects (Tended.add pop tended sound trivial sound' ran)
        (pop.affects.trans joined.toAffects) not_false
  | complete type id =>
      have ran : popped.addStreamCompleteCb config type id
          (config.mHandlerTable.mAddComplete failed) = .ok after := by
        cases type <;> exact ran
      rcases addStreamCompleteCb_inv pop.due ran with rfl | joins
      · exact .of_affects (Tended.fails pop tended sound trivial) pop.affects not_false
      · have joined := addEventCb_written pop.due.known pop.due.given joins
        exact .of_affects (Tended.complete pop tended sound trivial sound' joins)
          (pop.affects.trans ((setStream_affects pop.due.found { tstream with mReady := true } rfl
            id).trans joined.toAffects)) not_false
  | remove type id =>
      have ran : popped.removeEventCb config type id = .ok after := by
        cases type <;> exact ran
      obtain ⟨endpoint', read, removes⟩ := bind_ok ran
      obtain rfl := Option.some.inj (pop.due.known.symm.trans (Heap.find_of_read read))
      have known : before.endpoints.find id = some endpoint := pop.endpoints ▸ pop.due.known
      split at removes
      · rename_i unready
        have unready : endpoint.mReady = false := by simpa using unready
        cases removes
        refine ⟨pop.affects.trans (set_affects pop.due.known (by exact ⟨rfl, rfl, rfl⟩) _ stream),
          Tended.defer pop tended sound trivial unready, fun _ endpoint' known' ready => ?_⟩
        obtain rfl := Option.some.inj (known.symm.trans known')
        exact absurd (unready.symm.trans ready) Bool.false_ne_true
      · have used : tstream.mRefCount ≠ 0 :=
          tended.used stream tstream (pop.streams ▸ pop.due.found)
        obtain ⟨affects, away, -⟩ := remove_affects takes pop.due.given pop.due.found used removes
        exact ⟨pop.affects.trans affects, Tended.remove pop takes tended sound removes,
          fun _ _ _ _ => away⟩

/-- What holds between the steps goes on to hold. -/
theorem Tended.step (takes : TakesBack config) (tended : Tended before) (sound : Sound before)
    {call : Call} {out : List EndpointId} (proper : before.Allowed call ∧ before.Tidy call)
    (ran : step config call before = .ok (after, out)) : Tended after := by
  have sound' := step_sound sound proper ran
  cases call with
  | createPub topic0 mReadyCb => exact tended.create sound sound' (silent_ok ran).1
  | createSub topic0 mReadyCb => exact tended.create sound sound' (silent_ok ran).1
  | destroyPub id => exact tended.destroy sound proper.1 (silent_ok ran).1
  | destroySub id => exact tended.destroy sound proper.1 (silent_ok ran).1
  | event thread failed =>
      dsimp only [Tport.step] at ran
      split at ran
      · cases ran
        exact tended
      · rename_i event rest queue
        obtain ⟨stream, runs⟩ := tended.runs takes sound sound' queue (silent_ok ran).1
        exact runs.tended
  | dispatch id =>
      dsimp only [Tport.step] at ran
      split at ran
      · obtain ⟨endpoint, _, ran⟩ := bind_ok ran
        obtain ⟨middle, released, ran⟩ := bind_ok ran
        cases ran
        exact tended.release sound _ released
      · cases ran
        exact tended

end Sbf.Tport
