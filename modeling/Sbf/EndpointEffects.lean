import Sbf.TopicLifetime

set_option autoImplicit false

namespace Sbf

open Octets Topics

/-- Two versions of an endpoint, on the same stream and destroyed or not in both. -/
structure Endpoint.Kin (after before : Endpoint) : Prop where
  topic : after.mTopic = before.mTopic
  stream : after.mTportStream = before.mTportStream
  destroyed : after.mDestroyed = before.mDestroyed

theorem Endpoint.Kin.refl (endpoint : Endpoint) : endpoint.Kin endpoint := ⟨rfl, rfl, rfl⟩

theorem Endpoint.Kin.trans {first second third : Endpoint} (two : third.Kin second)
    (one : second.Kin first) : third.Kin first :=
  ⟨two.topic.trans one.topic, two.stream.trans one.stream, two.destroyed.trans one.destroyed⟩

namespace Tport

variable {H S : Type}

/-- A step for an endpoint and its stream, and what it leaves of the rest. Nothing is queued;
events leave the queues when they run, and completions when their stream goes. -/
structure Affects (id : EndpointId) (stream : StreamId) (before after : Tport H S) : Prop
    extends Spares id before after where
  left : before.Gone id → after.Gone id
  own : ∀ endpoint', after.endpoints.find id = some endpoint' → ∃ endpoint,
    before.endpoints.find id = some endpoint ∧ endpoint'.Kin endpoint
  streams : ∀ other, other ≠ stream → after.streams.find other = before.streams.find other
  thread : ∀ tstream', after.streams.find stream = some tstream' → ∃ tstream,
    before.streams.find stream = some tstream ∧ tstream'.mThread = tstream.mThread
  kept : ∀ thread, ∀ event ∈ before.queues thread, event.id ≠ id →
    event ∈ after.queues thread ∨ event.Completes
  sublist : ∀ thread, (after.queues thread).Sublist (before.queues thread)

theorem Affects.trans {id : EndpointId} {stream : StreamId} {first second third : Tport H S}
    (one : Affects id stream first second) (two : Affects id stream second third) :
    Affects id stream first third where
  toSpares := one.toSpares.trans two.toSpares
  left := fun away => two.left (one.left away)
  own endpoint'' found'' := by
    obtain ⟨endpoint', found', kin'⟩ := two.own endpoint'' found''
    obtain ⟨endpoint, found, kin⟩ := one.own endpoint' found'
    exact ⟨endpoint, found, kin'.trans kin⟩
  streams other apart := (two.streams other apart).trans (one.streams other apart)
  thread tstream'' lookup'' := by
    obtain ⟨tstream', lookup', same'⟩ := two.thread tstream'' lookup''
    obtain ⟨tstream, lookup, same⟩ := one.thread tstream' lookup'
    exact ⟨tstream, lookup, same'.trans same⟩
  kept thread event member apart := by
    rcases one.kept thread event member apart with still | completes
    · exact two.kept thread event still apart
    · exact .inr completes
  sublist thread := (two.sublist thread).trans (one.sublist thread)

section Effects

variable {before after : Tport H S} {id : EndpointId} {stream : StreamId} {endpoint : Endpoint}
  {tstream : TportStream S} {type : TopicType}

/-- An event leaves its queue. -/
theorem pop_affects {thread : Nat} {event : Event} {rest : List Event}
    (queue : before.queues thread = event :: rest) (stream : StreamId) :
    Affects event.id stream before { before with
      queues := fun other => if other = thread then rest else before.queues other } where
  toSpares := ⟨fun _ _ => rfl, fun _ _ => Iff.rfl, fun _ _ => Iff.rfl⟩
  left := fun away => away
  own endpoint found := ⟨endpoint, found, .refl endpoint⟩
  streams _ _ := rfl
  thread tstream lookup := ⟨tstream, lookup, rfl⟩
  kept at_thread _ member apart := by
    dsimp only
    split
    · rename_i same
      rw [same, queue, List.mem_cons] at member
      rcases member with rfl | behind
      · exact absurd rfl apart
      · exact .inl behind
    · exact .inl member
  sublist at_thread := by
    dsimp only
    split
    · rename_i same
      rw [same, queue]
      exact List.sublist_cons_self _ _
    · exact List.Sublist.refl _

/-- The endpoint alone is written. -/
theorem set_affects (found : before.endpoints.find id = some endpoint) {endpoint' : Endpoint}
    (kin : endpoint'.Kin endpoint) (items : List EndpointId) (stream : StreamId) :
    Affects id stream before { before with
      endpoints := before.endpoints.set id endpoint'
      items := items } where
  endpoints other apart := (RbTree.find_set ..).trans (if_neg apart)
  added _ _ := Iff.rfl
  gone _ _ := Iff.rfl
  left := fun away => away
  own endpoint'' found'' := by
    obtain rfl := Option.some.inj ((RbTree.find_set_self ..).symm.trans found'')
    exact ⟨endpoint, found, kin⟩
  streams _ _ := rfl
  thread tstream lookup := ⟨tstream, lookup, rfl⟩
  kept _ _ member _ := .inl member
  sublist _ := List.Sublist.refl _

/-- The user queues are nobody else's business. -/
theorem items_affects (before : Tport H S) (items : List EndpointId) (id : EndpointId)
    (stream : StreamId) : Affects id stream before { before with items := items } where
  toSpares := ⟨fun _ _ => rfl, fun _ _ => Iff.rfl, fun _ _ => Iff.rfl⟩
  left := fun away => away
  own endpoint found := ⟨endpoint, found, .refl endpoint⟩
  streams _ _ := rfl
  thread tstream lookup := ⟨tstream, lookup, rfl⟩
  kept _ _ member _ := .inl member
  sublist _ := List.Sublist.refl _

/-- The endpoint alone is freed. -/
theorem erase_affects (id : EndpointId) (before : Tport H S) (stream : StreamId) :
    Affects id stream before { before with endpoints := before.endpoints.erase id } where
  endpoints _ apart := (RbTree.find_erase ..).trans (if_neg apart)
  added _ _ := Iff.rfl
  gone _ _ := Iff.rfl
  left := fun away => away
  own endpoint found := ⟨endpoint, (RbTree.find_erase_some found).2, .refl endpoint⟩
  streams _ _ := rfl
  thread tstream lookup := ⟨tstream, lookup, rfl⟩
  kept _ _ member _ := .inl member
  sublist _ := List.Sublist.refl _

/-- The stream alone is written. -/
theorem setStream_affects (lookup : before.streams.find stream = some tstream)
    (tstream' : TportStream S) (same : tstream'.mThread = tstream.mThread) (id : EndpointId) :
    Affects id stream before { before with streams := before.streams.set stream tstream' } where
  toSpares := ⟨fun _ _ => rfl, fun _ _ => Iff.rfl, fun _ _ => Iff.rfl⟩
  left := fun away => away
  own endpoint found := ⟨endpoint, found, .refl endpoint⟩
  streams other apart := (RbTree.find_set ..).trans (if_neg apart)
  thread tstream'' lookup'' := by
    obtain rfl := Option.some.inj ((RbTree.find_set_self ..).symm.trans lookup'')
    exact ⟨tstream, lookup, same⟩
  kept _ _ member _ := .inl member
  sublist _ := List.Sublist.refl _

theorem ready_affects (found : before.endpoints.find id = some endpoint)
    (ran : ready id before = .ok after) (stream : StreamId) :
    Affects id stream before after ∧ after.streams = before.streams ∧
      after.queues = before.queues ∧ after.mLog = before.mLog ∧ ∃ count, after.endpoints.find id =
        some { endpoint with mReady := true, mRefCount := count } := by
  obtain ⟨endpoint', read, ran⟩ := bind_ok ran
  obtain rfl := Option.some.inj (found.symm.trans (Heap.find_of_read read))
  dsimp only at ran
  split at ran
  · cases ran
    exact ⟨set_affects found (by exact ⟨rfl, rfl, rfl⟩) _ stream, rfl, rfl, rfl, _,
      RbTree.find_set_self ..⟩
  · cases ran
    exact ⟨set_affects found (by exact ⟨rfl, rfl, rfl⟩) _ stream, rfl, rfl, rfl, _,
      RbTree.find_set_self ..⟩

theorem release_affects (ran : release id before = .ok after) (stream : StreamId) :
    Affects id stream before after ∧ after.streams = before.streams ∧
      after.queues = before.queues ∧ after.mLog = before.mLog ∧
      ∀ endpoint', after.endpoints.find id = some endpoint' →
        ∃ endpoint count, before.endpoints.find id = some endpoint ∧
          endpoint' = { endpoint with mRefCount := count } := by
  obtain ⟨endpoint, read, ran⟩ := bind_ok ran
  have found := Heap.find_of_read read
  dsimp only at ran
  split at ran
  · cases ran
    refine ⟨erase_affects id before stream, rfl, rfl, rfl, ?_⟩
    intro endpoint' found'
    exact absurd rfl (RbTree.find_erase_some found').1
  · cases ran
    refine ⟨set_affects found (by exact ⟨rfl, rfl, rfl⟩) _ stream, rfl, rfl, rfl, ?_⟩
    intro endpoint' found'
    obtain rfl := Option.some.inj ((RbTree.find_set_self ..).symm.trans found')
    exact ⟨endpoint, _, found, rfl⟩

theorem ensureTopic_same (tstream : TportStream S) (address : Nat) (topic : CString) :
    (tstream.ensureTopic address topic).2.mThread = tstream.mThread ∧
      (tstream.ensureTopic address topic).2.mReady = tstream.mReady := by
  unfold TportStream.ensureTopic
  split
  · exact ⟨rfl, rfl⟩
  · exact ⟨rfl, rfl⟩

theorem attach_affects (found : before.endpoints.find id = some endpoint)
    (lookup : before.streams.find stream = some tstream) :
    Affects id stream before (before.attach type id endpoint stream tstream) where
  endpoints other apart := (RbTree.find_set ..).trans (if_neg apart)
  added other apart := by simp [attach, Added, log, apart]
  gone _ _ := by simp [attach, Gone, log]
  left := fun away => by simpa [attach, Gone, log] using away
  own endpoint' found' := by
    obtain rfl := Option.some.inj ((RbTree.find_set_self ..).symm.trans found')
    exact ⟨endpoint, found, rfl, rfl, rfl⟩
  streams other apart := (RbTree.find_set ..).trans (if_neg apart)
  thread tstream' lookup' := by
    obtain rfl := Option.some.inj ((RbTree.find_set_self ..).symm.trans lookup')
    exact ⟨tstream, lookup, (ensureTopic_same ..).1⟩
  kept _ _ member _ := .inl member
  sublist _ := List.Sublist.refl _

/-- What is so of an endpoint that was put on its node. -/
structure Joined (before after : Tport H S) (id : EndpointId) (endpoint : Endpoint)
    (stream : StreamId) (tstream : TportStream S) : Prop
    extends Affects id stream before after where
  queues : after.queues = before.queues
  present : after.Gone id → before.Gone id
  joined : ∃ endpoint', after.endpoints.find id = some endpoint' ∧
    endpoint'.mTportTopic ≠ none ∧ endpoint'.mRemoved = endpoint.mRemoved ∧
    (tstream.mReady = true → endpoint'.mReady = true)
  ready : ∀ tstream', after.streams.find stream = some tstream' → tstream'.mReady = tstream.mReady

/-- The add event of an endpoint. -/
theorem addEventCb_joined (found : before.endpoints.find id = some endpoint)
    (given : endpoint.mTportStream = some stream)
    (lookup : before.streams.find stream = some tstream)
    (ran : addEventCb type id before = .ok after) :
    Joined before after id endpoint stream tstream := by
  have attached : Affects id stream before (before.attach type id endpoint stream tstream) :=
    attach_affects found lookup
  have known : (before.attach type id endpoint stream tstream).endpoints.find id = some _ :=
    RbTree.find_set_self ..
  have present : (before.attach type id endpoint stream tstream).Gone id → before.Gone id := by
    simp [Gone, attach, log]
  have ready : ∀ tstream', (before.attach type id endpoint stream tstream).streams.find stream =
      some tstream' → tstream'.mReady = tstream.mReady := by
    intro tstream' lookup'
    obtain rfl := Option.some.inj ((RbTree.find_set_self ..).symm.trans lookup')
    exact (ensureTopic_same ..).2
  simp only [Tport.addEventCb, Heap.read_some found, given, notNull, Heap.read_some lookup, bind,
    Except.bind] at ran
  split at ran
  · obtain ⟨affects, streams, queues, log, count, own⟩ := ready_affects known ran stream
    exact {
      toAffects := attached.trans affects
      queues := queues
      present := by
        rw [Gone, log]
        exact present
      joined := ⟨_, own, Option.some_ne_none _, rfl, fun _ => rfl⟩
      ready := by
        rw [streams]
        exact ready }
  · rename_i unready
    cases ran
    exact {
      toAffects := attached
      queues := rfl
      present := present
      joined := ⟨_, known, Option.some_ne_none _, rfl, fun ready => absurd ready unready⟩
      ready := ready }

/-- The same, after its stream has been written. -/
theorem addEventCb_written (found : before.endpoints.find id = some endpoint)
    (given : endpoint.mTportStream = some stream)
    (ran : addEventCb type id { before with streams := before.streams.set stream tstream } =
      .ok after) :
    Joined { before with streams := before.streams.set stream tstream } after id endpoint stream
      tstream :=
  addEventCb_joined found given (RbTree.find_set_self ..) ran

/-- An endpoint leaves the list of its node. -/
theorem detach_affects (lookup : before.streams.find stream = some tstream) (type : TopicType)
    (id : EndpointId) (endpoint : Endpoint) (ttopic : TportTopic) :
    Affects id stream before (before.detach type id endpoint stream tstream ttopic) ∧
      (before.detach type id endpoint stream tstream ttopic).Gone id ∧
      (before.detach type id endpoint stream tstream ttopic).streams.find stream =
        some { tstream with mTopics := Topics.update tstream.mTopics (ttopic.unlink id type) } := by
  obtain ⟨weights, detached⟩ := before.detach_eq type id endpoint stream tstream ttopic
  rw [detached]
  refine ⟨?_, by simp [Gone, log], RbTree.find_set_self ..⟩
  exact {
    endpoints := fun _ _ => rfl
    added := fun _ _ => by simp [Added, log]
    gone := fun _ apart => by simp [Gone, log, apart]
    left := fun _ => by simp [Gone, log]
    own := fun endpoint found => ⟨endpoint, found, .refl endpoint⟩
    streams := fun other apart => (RbTree.find_set ..).trans (if_neg apart)
    thread := fun tstream' lookup' => by
      obtain rfl := Option.some.inj ((RbTree.find_set_self ..).symm.trans lookup')
      exact ⟨tstream, lookup, rfl⟩
    kept := fun _ _ member _ => .inl member
    sublist := fun _ => List.Sublist.refl _ }

section Remove

variable {config : TportConfig H S}

/-- The events that a handler takes back with a stream are completions. -/
def TakesBack (config : TportConfig H S) : Prop :=
  ∀ mHandler mStream, ∀ event ∈ (config.mHandlerTable.mRemoveStream mHandler mStream).2,
    event.Completes

variable (takes : TakesBack config)
include takes

theorem removeStream_affects (ran : removeStream config stream before = .ok after)
    (id : EndpointId) : Affects id stream before after ∧ after.streams.find stream = none := by
  obtain ⟨tstream, read, ran⟩ := bind_ok ran
  cases ran
  refine ⟨?_, (RbTree.find_erase ..).trans (if_pos rfl)⟩
  exact {
    endpoints := fun _ _ => rfl
    added := fun _ _ => by simp [Added, log, deleteEvents]
    gone := fun _ _ => by simp [Gone, log, deleteEvents]
    left := fun away => by simpa [Gone, log, deleteEvents] using away
    own := fun endpoint found => ⟨endpoint, found, .refl endpoint⟩
    streams := fun other apart => (RbTree.find_erase ..).trans (if_neg apart)
    thread := fun tstream' lookup' => absurd rfl (RbTree.find_erase_some lookup').1
    kept := by
      intro thread event member _
      dsimp only [log, deleteEvents]
      split
      · rename_i same
        subst same
        by_cases deleted : event ∈
            (config.mHandlerTable.mRemoveStream before.mHandler tstream.mStream).2
        · exact .inr (takes _ _ event deleted)
        · exact .inl (List.mem_filter.mpr ⟨member, by simpa using deleted⟩)
      · exact .inl member
    sublist := by
      intro thread
      dsimp only [log, deleteEvents]
      split
      · rename_i same
        subst same
        exact List.filter_sublist
      · exact List.Sublist.refl _ }

/-- The node of a topic goes, and its stream if that was the last reference. -/
theorem removeTopic_affects {address : Nat} (lookup : before.streams.find stream = some tstream)
    (ran : removeTopic config stream address before = .ok after) (id : EndpointId) :
    Affects id stream before after ∧ ∀ tstream', after.streams.find stream = some tstream' →
      tstream'.mReady = tstream.mReady ∧ tstream'.mRefCount ≠ 0 := by
  obtain ⟨tstream', read, ran⟩ := bind_ok ran
  obtain rfl := Option.some.inj (lookup.symm.trans (Heap.find_of_read read))
  obtain ⟨⟨empty, left⟩, removed, ran⟩ := bind_ok ran
  unfold TportStream.removeTopic at removed
  dsimp only at removed
  split at removed
  · cases removed
  · cases removed
    dsimp only at ran
    have written := setStream_affects lookup { tstream with
      mRefCount := tstream.mRefCount - 1
      mTopics := tstream.mTopics.filter (·.address ≠ address) } rfl id
    split at ran
    · obtain ⟨affects, away⟩ := removeStream_affects takes ran id
      refine ⟨written.trans affects, fun tstream' lookup' => ?_⟩
      rw [away] at lookup'
      cases lookup'
    · rename_i more
      cases ran
      refine ⟨written, fun tstream' lookup' => ?_⟩
      obtain rfl := Option.some.inj ((RbTree.find_set_self ..).symm.trans lookup')
      exact ⟨rfl, fun zero => more ⟨by simpa using zero, zero⟩⟩

/-- The removal of an endpoint. -/
theorem remove_affects (given : endpoint.mTportStream = some stream)
    (lookup : before.streams.find stream = some tstream) (used : tstream.mRefCount ≠ 0)
    (ran : remove config type id endpoint before = .ok after) :
    Affects id stream before after ∧ after.Gone id ∧
      ∀ tstream', after.streams.find stream = some tstream' →
        tstream'.mReady = tstream.mReady ∧ tstream'.mRefCount ≠ 0 := by
  obtain ⟨stream', given', ran⟩ := bind_ok ran
  obtain rfl := Option.some.inj (given.symm.trans (notNull_ok given'))
  obtain ⟨tstream', read, ran⟩ := bind_ok ran
  obtain rfl := Option.some.inj (lookup.symm.trans (Heap.find_of_read read))
  obtain ⟨address, node, ran⟩ := bind_ok ran
  obtain ⟨ttopic, found, ran⟩ := bind_ok ran
  split at ran
  · cases ran
  · obtain ⟨middle, left, ran⟩ := bind_ok ran
    obtain ⟨detached, gone, lookup'⟩ := detach_affects lookup type id endpoint ttopic
    obtain ⟨released, streams, -⟩ := release_affects ran stream
    rw [streams]
    unfold leaveTopic at left
    split at left
    · obtain ⟨affects, stays⟩ := removeTopic_affects takes lookup' left id
      refine ⟨(detached.trans affects).trans released, released.left (affects.left gone), ?_⟩
      exact stays
    · cases left
      refine ⟨detached.trans released, released.left gone, fun tstream' lookup'' => ?_⟩
      rw [lookup'] at lookup''
      cases lookup''
      exact ⟨rfl, used⟩

end Remove

end Effects

end Tport

theorem TcpMeshHandler.takesBack {config : TportConfig TcpMeshHandler Unit}
    (same : config.mHandlerTable = table) : Tport.TakesBack config := by
  intro mHandler mStream event member
  rw [same] at member
  cases member

theorem UdpHandler.takesBack {config : TportConfig UdpHandler UdpHandlerStream}
    {makeAddress : Topic → UInt32} (same : config.mHandlerTable = table makeAddress) :
    Tport.TakesBack config := by
  intro mHandler mStream event member
  rw [same] at member
  obtain rfl := List.mem_singleton.mp member
  trivial

end Sbf
