import Mathlib.Logic.Relation
import Sbf.EndpointEvents

set_option autoImplicit false

/-! What the steps of a transport do to its streams and to the handler's table: they
leave both alone, add a stream to both, or take one out of both. -/

namespace Sbf

open Octets

namespace Tport

variable {H S : Type}

/-- The handler's stream behind a stream of the transport. -/
def handlerStream (tport : Tport H S) (id : StreamId) : Option S :=
  (tport.streams.find id).map (·.mStream)

/-- Neither the transport's streams nor the handler's table have changed. -/
structure Still (before after : Tport H S) : Prop where
  handler : after.mHandler = before.mHandler
  listed : after.mStreams = before.mStreams
  streams : after.handlerStream = before.handlerStream
  removed : ∀ id, .removingStream id ∈ after.mLog ↔ .removingStream id ∈ before.mLog
  fresh : before.fresh ≤ after.fresh

theorem Still.refl (tport : Tport H S) : Still tport tport :=
  ⟨rfl, rfl, rfl, fun _ => Iff.rfl, Nat.le_refl _⟩

theorem Still.trans {first second third : Tport H S} (one : Still first second)
    (two : Still second third) : Still first third :=
  ⟨two.handler.trans one.handler, two.listed.trans one.listed, two.streams.trans one.streams,
    fun id => (two.removed id).trans (one.removed id), Nat.le_trans one.fresh two.fresh⟩

/-- One change of the streams. -/
inductive Move (table : HandlerTable H S) (before after : Tport H S) : Prop
  | still (same : Still before after)
  | added (type : TopicType) (topic : Topic) (thread : Nat) (id : StreamId) (closure : EndpointId)
      (mStream : S) (events : List Event)
      (absent : table.mFindStream before.mHandler topic = none)
      (handler : table.mAddStream before.mHandler type topic thread id closure =
        .ok (after.mHandler, mStream, events))
      (listed : after.mStreams = before.mStreams ++ [id])
      (streams : ∀ other, after.handlerStream other =
        if other = id then some mStream else before.handlerStream other)
      (removed : ∀ id, .removingStream id ∈ after.mLog ↔ .removingStream id ∈ before.mLog)
      (unused : before.fresh ≤ id) (fresh : id < after.fresh)
  | removed (id : StreamId) (mStream : S) (found : before.handlerStream id = some mStream)
      (handler : after.mHandler = (table.mRemoveStream before.mHandler mStream).1)
      (listed : after.mStreams = before.mStreams.erase id)
      (streams : ∀ other, after.handlerStream other =
        if other = id then none else before.handlerStream other)
      (removed : .removingStream id ∈ after.mLog) (fresh : before.fresh ≤ after.fresh)

abbrev Moves (table : HandlerTable H S) : Tport H S → Tport H S → Prop :=
  Relation.ReflTransGen (Move table)

theorem Still.moves {table : HandlerTable H S} {before after : Tport H S}
    (same : Still before after) : Moves table before after := .single (.still same)

/-- Writing a stream back with the handler's stream it had. -/
theorem handlerStream_set (tport : Tport H S) (id : StreamId) (before after : TportStream S)
    (found : tport.streams.find id = some before) (same : after.mStream = before.mStream) :
    (fun other => ((tport.streams.set id after).find other).map (·.mStream)) =
      tport.handlerStream := by
  funext other
  simp only [RbTree.find_set, handlerStream]
  by_cases here : other = id
  · rw [if_pos here, here, found, Option.map_some, Option.map_some, same]
  · rw [if_neg here]

section Steps

variable {before after : Tport H S} {id : Nat}

theorem ready_still (ran : ready id before = .ok after) : Still before after := by
  obtain ⟨endpoint, _, ran⟩ := bind_ok ran
  dsimp only at ran
  split at ran <;> cases ran <;> exact ⟨rfl, rfl, rfl, fun _ => Iff.rfl, Nat.le_refl _⟩

theorem release_still (ran : release id before = .ok after) : Still before after := by
  obtain ⟨endpoint, _, ran⟩ := bind_ok ran
  dsimp only at ran
  split at ran <;> cases ran <;> exact ⟨rfl, rfl, rfl, fun _ => Iff.rfl, Nat.le_refl _⟩

theorem release_streams (ran : release id before = .ok after) : after.streams = before.streams := by
  obtain ⟨endpoint, _, ran⟩ := bind_ok ran
  dsimp only at ran
  split at ran <;> cases ran <;> rfl

theorem ensureTopic_mStream (tstream : TportStream S) (address : Nat) (topic : CString) :
    (tstream.ensureTopic address topic).2.mStream = tstream.mStream := by
  unfold TportStream.ensureTopic
  split <;> rfl

theorem attach_still {type : TopicType} {endpoint : Endpoint} {stream : StreamId}
    {tstream : TportStream S} (found : before.streams.find stream = some tstream) :
    Still before (before.attach type id endpoint stream tstream) where
  handler := rfl
  listed := rfl
  streams := handlerStream_set before stream tstream _ found
    (ensureTopic_mStream tstream before.fresh endpoint.mTopic.mTopic)
  removed := by simp [attach, log]
  fresh := Nat.le_succ _

theorem detach_still {type : TopicType} {endpoint : Endpoint} {stream : StreamId}
    {tstream : TportStream S} {ttopic : TportTopic}
    (found : before.streams.find stream = some tstream) :
    Still before (before.detach type id endpoint stream tstream ttopic) := by
  have streams := handlerStream_set before stream tstream
    { tstream with mTopics := Topics.update tstream.mTopics (ttopic.unlink id type) } found rfl
  cases type <;>
    exact ⟨rfl, rfl, streams, by simp [detach, log, adjustWeight], Nat.le_refl _⟩

theorem hold_still {type : TopicType} {endpoint : Endpoint} {stream : StreamId}
    {tstream : TportStream S} (found : before.streams.find stream = some tstream) :
    Still before (before.hold type id endpoint stream tstream) := by
  have streams := handlerStream_set before stream tstream
    { tstream with mRefCount := tstream.mRefCount + 1 } found rfl
  cases type <;> exact ⟨rfl, rfl, streams, fun _ => Iff.rfl, Nat.le_refl _⟩

theorem addEventCb_still {type : TopicType} (ran : addEventCb type id before = .ok after) :
    Still before after := by
  obtain ⟨endpoint, _, ran⟩ := bind_ok ran
  obtain ⟨stream, _, ran⟩ := bind_ok ran
  obtain ⟨tstream, read, ran⟩ := bind_ok ran
  have attached : Still before (before.attach type id endpoint stream tstream) :=
    attach_still (Heap.find_of_read read)
  dsimp only at ran
  split at ran
  · exact attached.trans (ready_still ran)
  · cases ran
    exact attached

variable {config : TportConfig H S}

theorem removeStream_moves (ran : removeStream config id before = .ok after) :
    Moves config.mHandlerTable before after := by
  obtain ⟨tstream, read, ran⟩ := bind_ok ran
  have found := Heap.find_of_read read
  cases ran
  refine .single (.removed id tstream.mStream (by simp [handlerStream, found]) rfl rfl ?_
    (by simp [log]) (Nat.le_refl _))
  intro other
  simp only [handlerStream, log, RbTree.find_erase]
  split <;> rfl

theorem removeTopic_moves {address : Nat}
    (ran : removeTopic config id address before = .ok after) :
    Moves config.mHandlerTable before after := by
  obtain ⟨tstream, read, ran⟩ := bind_ok ran
  obtain ⟨⟨empty, removed⟩, topic, ran⟩ := bind_ok ran
  have same : removed.mStream = tstream.mStream := by
    dsimp only [TportStream.removeTopic] at topic
    split at topic <;> cases topic
    rfl
  have written : Still before { before with streams := before.streams.set id removed } :=
    ⟨rfl, rfl, handlerStream_set before id tstream removed (Heap.find_of_read read) same,
      fun _ => Iff.rfl, Nat.le_refl _⟩
  dsimp only at ran
  split at ran
  · exact written.moves.trans (removeStream_moves ran)
  · cases ran
    exact written.moves

theorem remove_moves {type : TopicType} {endpoint : Endpoint}
    (ran : remove config type id endpoint before = .ok after) :
    Moves config.mHandlerTable before after := by
  obtain ⟨stream, _, ran⟩ := bind_ok ran
  obtain ⟨tstream, read, ran⟩ := bind_ok ran
  obtain ⟨address, _, ran⟩ := bind_ok ran
  obtain ⟨ttopic, _, ran⟩ := bind_ok ran
  have detached : Still before (before.detach type id endpoint stream tstream ttopic) :=
    detach_still (Heap.find_of_read read)
  split at ran
  · cases ran
  · obtain ⟨middle, removed, ran⟩ := bind_ok ran
    refine detached.moves.trans (Relation.ReflTransGen.trans ?_ (release_still ran).moves)
    dsimp only [leaveTopic] at removed
    split at removed
    · exact removeTopic_moves removed
    · cases removed
      exact .refl

theorem removeEventCb_moves {type : TopicType}
    (ran : removeEventCb config type id before = .ok after) :
    Moves config.mHandlerTable before after := by
  obtain ⟨endpoint, _, ran⟩ := bind_ok ran
  split at ran
  · cases ran
    exact Still.moves ⟨rfl, rfl, rfl, fun _ => Iff.rfl, Nat.le_refl _⟩
  · exact remove_moves ran

theorem follow_moves {alive : Nat → Tport H S → Bool}
    {body : Nat → Tport H S → Except Fault (Tport H S)}
    (each : ∀ element before after, body element before = .ok after →
      Moves config.mHandlerTable before after) (elements : List Nat)
    (ran : follow alive body elements before = .ok after) :
    Moves config.mHandlerTable before after := by
  induction elements generalizing before with
  | nil =>
      cases ran
      exact .refl
  | cons element rest ih =>
      obtain ⟨middle, visited, ran⟩ := bind_ok ran
      split at ran
      · exact (each element before middle visited).trans (ih ran)
      · cases ran

theorem completeEndpoint_moves {type : TopicType}
    (ran : completeEndpoint config type id before = .ok after) :
    Moves config.mHandlerTable before after := by
  obtain ⟨middle, readied, ran⟩ := bind_ok ran
  obtain ⟨endpoint, _, ran⟩ := bind_ok ran
  refine (ready_still readied).moves.trans ?_
  split at ran
  · exact removeEventCb_moves ran
  · cases ran
    exact .refl

theorem completeCreator_moves {type : TopicType}
    (ran : completeCreator config type id before = .ok after) :
    Moves config.mHandlerTable before after := by
  obtain ⟨middle, added, ran⟩ := bind_ok ran
  obtain ⟨endpoint, _, ran⟩ := bind_ok ran
  refine (addEventCb_still added).moves.trans ?_
  split at ran
  · exact removeEventCb_moves ran
  · cases ran
    exact .refl

theorem addStreamCompleteCb_moves {type : TopicType} {error : Bool}
    (ran : addStreamCompleteCb config type id error before = .ok after) :
    Moves config.mHandlerTable before after := by
  obtain ⟨endpoint, _, ran⟩ := bind_ok ran
  obtain ⟨stream, _, ran⟩ := bind_ok ran
  obtain ⟨tstream, read, ran⟩ := bind_ok ran
  split at ran
  · cases ran
    exact .refl
  · obtain ⟨middle, visited, ran⟩ := bind_ok ran
    have written : Still before
        { before with streams := before.streams.set stream { tstream with mReady := true } } :=
      ⟨rfl, rfl, handlerStream_set before stream tstream _ (Heap.find_of_read read) rfl,
        fun _ => Iff.rfl, Nat.le_refl _⟩
    refine written.moves.trans (Relation.ReflTransGen.trans ?_ (completeCreator_moves ran))
    refine follow_moves ?_ _ visited
    intro address before after ran
    obtain ⟨ttopic, _, ran⟩ := bind_ok ran
    exact follow_moves (fun _ _ _ => completeEndpoint_moves) _ ran

theorem addStream_moves {type : TopicType} {topic : Topic} {closure : EndpointId}
    {stream : StreamId}
    (absent : config.mHandlerTable.mFindStream before.mHandler topic = none)
    (ran : addStream config type topic closure before = .ok (stream, after)) :
    Moves config.mHandlerTable before after := by
  obtain ⟨thread, _, ran⟩ := bind_ok ran
  obtain ⟨⟨mHandler, mStream, events⟩, added, ran⟩ := bind_ok ran
  cases ran
  refine .single (.added type topic thread before.fresh closure mStream events absent added rfl ?_
    (fun _ => Iff.rfl) (Nat.le_refl _) (Nat.lt_succ_self _))
  intro other
  simp only [handlerStream, RbTree.find_set]
  split <;> rfl

theorem setStream_moves {type : TopicType}
    (ran : setStream config type id before = .ok after) :
    Moves config.mHandlerTable before after := by
  obtain ⟨endpoint, _, ran⟩ := bind_ok ran
  obtain ⟨⟨stream, middle⟩, found, ran⟩ := bind_ok ran
  obtain ⟨tstream, read, ran⟩ := bind_ok ran
  cases ran
  refine Relation.ReflTransGen.trans ?_ (hold_still (Heap.find_of_read read)).moves
  unfold findStream at found
  split at found
  · obtain ⟨_, _, found⟩ := bind_ok found
    cases found
    exact Still.moves ⟨rfl, rfl, rfl, fun _ => Iff.rfl, Nat.le_refl _⟩
  · rename_i absent
    exact addStream_moves absent found

theorem create_moves {type : TopicType} {topic0 : CString} {mReadyCb : Bool}
    (ran : create config type topic0 mReadyCb before = .ok after) :
    Moves config.mHandlerTable before after := by
  unfold create at ran
  split at ran
  · cases ran
    exact .refl
  · refine Relation.ReflTransGen.trans (Still.moves ?_) (setStream_moves ran)
    exact ⟨rfl, rfl, rfl, fun _ => Iff.rfl, Nat.le_succ _⟩

theorem destroy_still {type : TopicType} (ran : destroy type id before = .ok after) :
    Still before after := by
  obtain ⟨endpoint, _, ran⟩ := bind_ok ran
  split at ran
  · cases ran
    exact .refl _
  · obtain ⟨stream, _, ran⟩ := bind_ok ran
    obtain ⟨tstream, _, ran⟩ := bind_ok ran
    cases ran
    exact ⟨rfl, rfl, rfl, fun _ => Iff.rfl, Nat.le_refl _⟩

theorem readyQueueCb_still {out : List EndpointId}
    (ran : readyQueueCb id before = .ok (after, out)) : Still before after := by
  obtain ⟨endpoint, _, ran⟩ := bind_ok ran
  obtain ⟨middle, released, ran⟩ := bind_ok ran
  cases ran
  exact release_still released

theorem callback_moves {failed : Bool} {event : Event}
    (ran : callback config failed event before = .ok after) :
    Moves config.mHandlerTable before after := by
  rcases event with ⟨_ | _, id⟩ | ⟨_ | _, id⟩ | ⟨_ | _, id⟩
  · exact (addEventCb_still ran).moves
  · exact (addEventCb_still ran).moves
  · exact removeEventCb_moves ran
  · exact removeEventCb_moves ran
  · exact addStreamCompleteCb_moves ran
  · exact addStreamCompleteCb_moves ran

theorem step_moves {call : Call} {out : List EndpointId}
    (ran : step config call before = .ok (after, out)) :
    Moves config.mHandlerTable before after := by
  cases call with
  | createPub topic0 mReadyCb => exact create_moves (silent_ok ran).1
  | createSub topic0 mReadyCb => exact create_moves (silent_ok ran).1
  | destroyPub id => exact (destroy_still (silent_ok ran).1).moves
  | destroySub id => exact (destroy_still (silent_ok ran).1).moves
  | event thread failed =>
      dsimp only [step] at ran
      split at ran
      · cases ran
        exact .refl
      · refine Relation.ReflTransGen.trans (Still.moves ?_) (callback_moves (silent_ok ran).1)
        exact ⟨rfl, rfl, rfl, fun _ => Iff.rfl, Nat.le_refl _⟩
  | dispatch id =>
      dsimp only [step] at ran
      split at ran
      · refine Still.moves (Still.trans ?_ (readyQueueCb_still ran))
        exact ⟨rfl, rfl, rfl, fun _ => Iff.rfl, Nat.le_refl _⟩
      · cases ran
        exact .refl

/-- Whatever happens on a transport, its streams only move. -/
theorem run_moves (calls : List Call) {out : List EndpointId}
    (ran : run config calls before = .ok (after, out)) :
    Moves config.mHandlerTable before after := by
  induction calls generalizing before out with
  | nil =>
      cases ran
      exact .refl
  | cons call rest ih =>
      obtain ⟨middle, first, later, one, two, _⟩ := Step.andThen_inv ran
      exact (step_moves one).trans (ih two)

end Steps

end Tport

end Sbf
