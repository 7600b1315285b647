import Sbf.CompletionWalk
import Sbf.HandlerStreams

set_option autoImplicit false

namespace Sbf

open Octets Topics

/-- An endpoint on a node. -/
def Endpoint.placed (endpoint : Endpoint) (address : Nat) : Endpoint :=
  { endpoint with mTportTopic := some address }

namespace Tport

variable {H S : Type} {config : TportConfig H S} {tport next : Tport H S} {out : List Notice}

/-- Whoever is on the nodes of a stream, of one kind. -/
def attachedTo (tstream : TportStream S) (type : TopicType) : List EndpointId :=
  tstream.mTopics.flatMap (·.attached type)

section Walk

variable {type : TopicType} {stream : StreamId} {tstream : TportStream S}
  (lookup : tport.streams.find stream = some tstream)
  (addresses : (tstream.mTopics.map (·.address)).Nodup)
include lookup addresses

theorem topicAt_eq {ttopic : TportTopic} (member : ttopic ∈ tstream.mTopics) :
    tport.topicAt stream ttopic.address = .ok ttopic := by
  simp only [topicAt, Heap.read_some lookup, bind, Except.bind,
    tstream.topicAt_of_mem addresses member]

/-- The completion comes to one node. -/
theorem visit_topic {ttopic : TportTopic} (member : ttopic ∈ tstream.mTopics)
    (asleep : tport.Asleep out (ttopic.attached type)) :
    Outcome out (ttopic.attached type) tport
      (visit (fun address tport => (tport.topicAt stream address).isOk)
        (completeTopic config type stream) ttopic.address tport) := by
  have single := List.flatMap_singleton' (ttopic.attached type)
  have inner : Outcome out ((ttopic.attached type).flatMap (fun id => [id])) tport
      (tport.follow (fun id tport => (tport.endpoints.find id).isSome)
        (completeEndpoint config type) (ttopic.attached type)) :=
    follow_outcome (ttopic.attached type) (fun id _ _ _ asleep => visit_endpoint type id asleep) rfl
      (by rw [single]; exact asleep)
  rw [single] at inner
  simp only [visit, completeTopic, topicAt_eq lookup addresses member, bind, Except.bind]
  rcases inner with ⟨middle, ran, unmarked, woken, orderly⟩ | ⟨⟨fault, failed⟩, marked⟩
  · have lookup' : middle.streams.find stream = some tstream := by
      rw [woken.shape]
      exact lookup
    have there : (middle.topicAt stream ttopic.address).isOk = true := by
      rw [topicAt_eq lookup' addresses member]
      rfl
    refine Or.inl ⟨middle, ?_, unmarked, woken, orderly⟩
    simp only [ran, there, ↓reduceIte]
    rfl
  · exact Or.inr ⟨⟨fault, by simp only [failed]⟩, marked⟩

variable (config) in
/-- The completion's loop over the nodes. -/
theorem walk_outcome (asleep : tport.Asleep out (attachedTo tstream type)) :
    Outcome out (attachedTo tstream type) tport
      (tport.follow (fun address tport => (tport.topicAt stream address).isOk)
        (completeTopic config type stream) (tstream.mTopics.map (·.address))) := by
  let group : Nat → List EndpointId := fun address =>
    (tstream.mTopics.find? (·.address = address)).elim [] (·.attached type)
  have grouped : ∀ ttopic ∈ tstream.mTopics, group ttopic.address = ttopic.attached type := by
    intro ttopic member
    have found := tstream.topicAt_of_mem addresses member
    unfold TportStream.topicAt at found
    split at found
    · cases found
    · rename_i result
      cases found
      simp only [group, result, Option.elim_some]
  have same : (tstream.mTopics.map (·.address)).flatMap group = attachedTo tstream type := by
    rw [List.flatMap_map]
    exact List.flatMap_congr grouped
  rw [← same] at asleep ⊢
  refine follow_outcome _ ?_ rfl asleep
  intro address inside middle streams asleep
  obtain ⟨ttopic, member, rfl⟩ := List.mem_map.mp inside
  rw [grouped ttopic member] at asleep ⊢
  exact visit_topic (by rw [streams]; exact lookup) addresses member asleep

end Walk

/-- An endpoint can be removed from a stream that stands. -/
theorem Stands.remove_ok {stream : StreamId} {tstream : TportStream S}
    (stands : tport.Stands stream tstream) (config : TportConfig H S) {type : TopicType}
    {id : EndpointId} {endpoint : Endpoint} (found : tport.endpoints.find id = some endpoint)
    (given : endpoint.mTportStream = some stream) (attached : endpoint.mTportTopic ≠ none)
    (of_type : endpoint.mTopic.mType = type) :
    ∃ next, tport.remove config type id endpoint = .ok next := by
  obtain ⟨address, node⟩ := Option.ne_none_iff_exists'.mp attached
  obtain ⟨ttopic, member, rfl, _, on⟩ := (stands.listed address endpoint.mTopic.mTopic type id).mpr
    ⟨endpoint, found, given, node, of_type, rfl⟩
  have at_address := tstream.topicAt_of_mem stands.nodes.addresses member
  obtain ⟨_, _, _, total⟩ := stands.counted
  have shorter := length_filter stands.nodes.addresses member
  have filtered : (Topics.update tstream.mTopics (ttopic.unlink id type)).filter
      (·.address ≠ ttopic.address) = tstream.mTopics.filter (·.address ≠ ttopic.address) := by
    simpa using filter_update tstream.mTopics (ttopic.unlink id type)
  -- The assertion holds: a count of zero is a count of no nodes.
  have fits : ¬ (tstream.mRefCount - 1 = 0 ∧
      tstream.mTopics.filter (·.address ≠ ttopic.address) ≠ []) := by
    rintro ⟨zero, more⟩
    have := List.length_pos_of_ne_nil more
    omega
  obtain ⟨middle, left⟩ : ∃ middle, (tport.detach type id endpoint stream tstream ttopic).leaveTopic
      config stream ttopic.address ((ttopic.unlink id type).attached type) = .ok middle := by
    rw [leaveTopic]
    split
    · obtain ⟨weights, state⟩ := tport.detach_eq type id endpoint stream tstream ttopic
      simp only [state, removeTopic, Heap.read_some (RbTree.find_set_self _ _ _), bind,
        Except.bind, TportStream.removeTopic, filtered, if_neg fits, RbTree.set_set]
      split
      · simp only [removeStream, Heap.read_some (RbTree.find_set_self _ _ _), bind, Except.bind]
        exact ⟨_, rfl⟩
      · exact ⟨_, rfl⟩
    · exact ⟨_, rfl⟩
  have departs : Departs stream [] _ middle := leaveTopic_departs left
  have found' : middle.endpoints.find id = some endpoint := by
    rw [departs.endpoints, (detach_departs type id endpoint ttopic stands.found).endpoints]
    exact found
  simp only [remove, given, notNull, node, Heap.read_some stands.found, at_address, on,
    not_true_eq_false, ↓reduceIte, left, bind, Except.bind, release_eq found']
  exact ⟨_, rfl⟩

section Creator

variable {type : TopicType} {id : EndpointId} {endpoint : Endpoint} {stream : StreamId}
  {tstream : TportStream S} (found : tport.endpoints.find id = some endpoint)
  (given : endpoint.mTportStream = some stream) (waits : endpoint.mTportTopic = none)
  (of_type : endpoint.mTopic.mType = type) (orderly : Orderly tport out)
  (alone : ∀ thread, ∀ event ∈ tport.queues thread, event.Starts → event.id ≠ id)
  (stands : tport.Stands stream tstream) (ready : tstream.mReady = true)
include found given waits

/-- An endpoint that is added to a ready stream. -/
def added (tport : Tport H S) (type : TopicType) (id : EndpointId) (endpoint : Endpoint)
    (stream : StreamId) (tstream : TportStream S) : Tport H S :=
  { tport.attach type id endpoint stream tstream with
    endpoints := (tport.attach type id endpoint stream tstream).endpoints.set id
      (endpoint.placed (tstream.ensureTopic tport.fresh endpoint.mTopic.mTopic).1.address).readied
    items := if endpoint.called then tport.items ++ [id] else tport.items }

omit waits in
include stands ready in
theorem addEventCb_eq : tport.addEventCb type id =
    .ok (tport.added type id endpoint stream tstream) := by
  have known : (tport.attach type id endpoint stream tstream).endpoints.find id = some _ :=
    RbTree.find_set_self _ _ _
  simp only [addEventCb, Heap.read_some found, given, notNull, Heap.read_some stands.found, ready,
    ↓reduceIte, bind, Except.bind]
  rw [ready_eq known]
  rfl

include of_type stands in
theorem added_stands : ∃ tstream',
    (tport.added type id endpoint stream tstream).Stands stream tstream' := by
  obtain ⟨tstream', attached, _⟩ := stands.attach found given waits of_type
  have known : (tport.attach type id endpoint stream tstream).endpoints.find id = some _ :=
    RbTree.find_set_self _ _ _
  have others : ∀ other, other ≠ id →
      (tport.added type id endpoint stream tstream).endpoints.find other =
        (tport.attach type id endpoint stream tstream).endpoints.find other := by
    intro other apart
    exact (RbTree.find_set _ _ _ _).trans (if_neg apart)
  refine ⟨tstream', attached.of_beside attached.found rfl rfl ?_ ?_ (Nat.le_refl _)⟩
  · intro other old known' _
    by_cases same : other = id
    · subst same
      obtain rfl := Option.some.inj (known.symm.trans known')
      exact ⟨_, RbTree.find_set_self _ _ _, ⟨rfl, rfl, rfl⟩⟩
    · exact ⟨old, (others other same).trans known', ⟨rfl, rfl, rfl⟩⟩
  · intro other new known' _
    by_cases same : other = id
    · subst same
      obtain rfl := Option.some.inj ((RbTree.find_set_self _ _ _).symm.trans known')
      exact ⟨_, known, ⟨rfl, rfl, rfl⟩⟩
    · exact ⟨new, (others other same).symm.trans known', ⟨rfl, rfl, rfl⟩⟩

include of_type orderly alone stands ready

variable (config) in
/-- The endpoint that created a stream is added, and removed if its removal was deferred. -/
theorem Orderly.completeCreator : ∃ next, tport.completeCreator config type id = .ok next ∧
    Orderly next out ∧
    (∀ other, other ≠ id → next.endpoints.find other = tport.endpoints.find other ∧
      next.items.count other = tport.items.count other) ∧
    if endpoint.mRemoved then next.Removed id else next.Readied id endpoint := by
  have fits := orderly.each id endpoint found
  have unready := orderly.unready_of_waits found waits
  obtain ⟨untouched, once⟩ := fits.unready unready
  have ran : tport.addEventCb type id = .ok (tport.added type id endpoint stream tstream) :=
    addEventCb_eq found given stands ready
  have orderly' := orderly.addEventCb found given waits stands.found of_type alone ran
  obtain ⟨address, known⟩ : ∃ address,
      (tport.added type id endpoint stream tstream).endpoints.find id =
        some (endpoint.placed address).readied := ⟨_, RbTree.find_set_self _ _ _⟩
  have others : ∀ other, other ≠ id →
      (tport.added type id endpoint stream tstream).endpoints.find other =
          tport.endpoints.find other ∧
        (tport.added type id endpoint stream tstream).items.count other =
          tport.items.count other := by
    intro other apart
    refine ⟨(RbTree.find_set _ _ _ _).trans ((if_neg apart).trans
      ((RbTree.find_set _ _ _ _).trans (if_neg apart))), ?_⟩
    dsimp only [added]
    split
    · simp [List.count_append, Ne.symm apart]
    · rfl
  cases marked : endpoint.mRemoved with
  | false =>
      refine ⟨tport.added type id endpoint stream tstream, ?_, orderly', others, ?_⟩
      · have same : (endpoint.placed address).readied.mRemoved = false := marked
        simp only [Tport.completeCreator, ran, Heap.read_some known, same, bind, Except.bind,
          Bool.false_eq_true, ↓reduceIte]
        rfl
      · refine ⟨unready, ⟨_, known, rfl⟩, ?_⟩
        have none_before := List.count_eq_zero.mpr untouched.items
        dsimp only [added]
        split
        · simp [List.count_append, none_before]
        · exact none_before
  | true =>
      have destroyed := fits.marked marked
      have silent : endpoint.called = false := by rw [Endpoint.called, destroyed]; rfl
      obtain ⟨tstream', stands'⟩ := added_stands found given waits of_type stands
      obtain ⟨next, removed⟩ := stands'.remove_ok config known given (Option.some_ne_none _) of_type
      obtain ⟨at_stream, middle, _, departs, released⟩ := remove_departs removed
      have known' := departs.endpoints ▸ known
      have same : (endpoint.placed address).readied.mRemoved = true := marked
      have ready' : (endpoint.placed address).readied.mReady = true := rfl
      have removal : (tport.added type id endpoint stream tstream).removeEventCb config type id =
          .ok next := by
        simp only [Tport.removeEventCb, Heap.read_some known, ready', bind, Except.bind, Bool.not_true,
          Bool.false_eq_true, ↓reduceIte, removed]
      have last : (endpoint.placed address).readied.mRefCount - 1 = 0 := by
        have silent' : (endpoint.placed address).called = false := silent
        have once' : (endpoint.placed address).mRefCount = 1 := once
        simp [Endpoint.readied, silent', once']
      rw [release_eq known', if_pos last] at released
      cases released
      refine ⟨_, ?_, orderly'.removeEventCb known destroyed removal, ?_, ?_, ?_⟩
      · simp only [Tport.completeCreator, ran, Heap.read_some known, same, bind, Except.bind,
          ↓reduceIte, removal]
      · intro other apart
        refine ⟨?_, ?_⟩
        · refine (RbTree.find_erase _ _ _).trans ((if_neg apart).trans ?_)
          rw [departs.endpoints]
          exact (others other apart).1
        · refine Eq.trans ?_ (others other apart).2
          exact congrArg (List.count other) departs.items
      · have lines := departs.lines id
        have none_before : tport.mLog.count (.removing id) = 0 :=
          List.count_eq_zero.mpr untouched.here
        have grown : (tport.added type id endpoint stream tstream).mLog =
            tport.mLog ++ [.adding id] := rfl
        refine lines.trans ?_
        rw [grown, List.count_append, none_before]
        simp
      · exact (RbTree.find_erase _ _ _).trans (if_pos rfl)

end Creator

section Complete

variable {thread : Nat} {type : TopicType} {id : EndpointId} (orderly : Orderly tport out)
  (due : .complete type id ∈ tport.queues thread)
include orderly due

/-- The stream that a completion is for, with the endpoint that created it. -/
theorem Orderly.creator : ∃ endpoint stream tstream, tport.endpoints.find id = some endpoint ∧
    endpoint.mTportStream = some stream ∧ endpoint.mTportTopic = none ∧
    endpoint.mTopic.mType = type ∧ tport.Pending stream tstream := by
  obtain ⟨stream, given⟩ := orderly.given thread type id due
  obtain ⟨endpoint, found, given'⟩ := Option.bind_eq_some_iff.mp given
  obtain ⟨tstream, pending⟩ := orderly.pending id stream ⟨⟨thread, type, due⟩, given⟩
  obtain ⟨waits, of_type⟩ := (orderly.each id endpoint found).starts thread (.complete type id) due
    rfl trivial
  exact ⟨endpoint, stream, tstream, found, given', waits, of_type, pending⟩

variable {endpoint : Endpoint} {stream : StreamId} {tstream : TportStream S}
  (found : tport.endpoints.find id = some endpoint)
  (given : endpoint.mTportStream = some stream)
include found given

/-- Once its completion has come, nobody waits for it any more. -/
theorem Orderly.not_awaited (other : EndpointId) (at_stream : StreamId)
    (awaits : (tport.take thread (.complete type id)).Awaits other at_stream) :
    at_stream ≠ stream := by
  rintro rfl
  obtain ⟨⟨at_thread, at_type, member⟩, given'⟩ := awaits
  have own : tport.Awaits id at_stream :=
    ⟨⟨thread, type, due⟩, Option.bind_eq_some_iff.mpr ⟨endpoint, found, given⟩⟩
  have before := (take_sublist thread (.complete type id) at_thread).subset member
  obtain rfl := orderly.completes other id at_stream ⟨⟨at_thread, at_type, before⟩, given'⟩ own
  exact orderly.alone due trivial at_thread _ member trivial rfl

variable (pending : tport.Pending stream tstream)
include pending

/-- The transport when the completion's loop starts. -/
def completing (tport : Tport H S) (thread : Nat) (type : TopicType) (id : EndpointId)
    (stream : StreamId) (tstream : TportStream S) : Tport H S :=
  { tport.take thread (.complete type id) with
    streams := tport.streams.set stream { tstream with mReady := true } }

theorem Orderly.completing :
    Orderly (tport.completing thread type id stream tstream) out := by
  have taken := orderly.take due
  have touches : Touches id (tport.take thread (.complete type id))
      (tport.completing thread type id stream tstream) :=
    ⟨taken.used found, Nat.le_refl _, fun _ there => isSome_of_set pending.found there,
      fun _ _ => rfl, fun endpoint known => ⟨endpoint, known, rfl⟩, fun _ _ inside => inside,
      taken.items, fun _ _ gone => gone, fun _ => List.Sublist.refl _⟩
  refine taken.touch touches ?_ (taken.kept id) ?_
  · intro endpoint' known
    have fits := taken.each id endpoint' known
    exact { fits with
      unready := fun unready => by
        obtain ⟨⟨items, silent, here⟩, once⟩ := fits.unready unready
        exact ⟨⟨items, silent, here⟩, once⟩ }
  · intro other at_stream awaits _
    have elsewhere := orderly.not_awaited due found given other at_stream awaits
    exact (SameAt.of_endpoints touches.fresh
      ((RbTree.find_set _ _ _ _).trans (if_neg elsewhere)) rfl).keeps

omit due found given orderly in
/-- Whoever is on the nodes has been added to the stream. -/
theorem Pending.mem_attachedTo (at_type : TopicType) (other : EndpointId) :
    other ∈ attachedTo tstream at_type ↔ ∃ endpoint, tport.endpoints.find other = some endpoint ∧
      endpoint.mTportStream = some stream ∧ endpoint.mTportTopic ≠ none ∧
        endpoint.mTopic.mType = at_type := by
  rw [attachedTo, List.mem_flatMap]
  constructor
  · rintro ⟨ttopic, member, on⟩
    obtain ⟨endpoint, known, given, node, of_type, _⟩ :=
      (pending.listed ttopic.address ttopic.mTopic at_type other).mp ⟨ttopic, member, rfl, rfl, on⟩
    exact ⟨endpoint, known, given, fun none => Option.some_ne_none _ (node.symm.trans none), of_type⟩
  · rintro ⟨endpoint, known, given, attached, of_type⟩
    obtain ⟨address, node⟩ := Option.ne_none_iff_exists'.mp attached
    obtain ⟨ttopic, member, _, _, on⟩ :=
      (pending.listed address endpoint.mTopic.mTopic at_type other).mpr
        ⟨endpoint, known, given, node, of_type, rfl⟩
    exact ⟨ttopic, member, on⟩

omit due found given orderly in
theorem Pending.attachedTo_nodup (at_type : TopicType) : (attachedTo tstream at_type).Nodup := by
  rw [attachedTo, List.nodup_flatMap]
  refine ⟨fun ttopic member => (pending.nodes.linked ttopic member).distinct at_type, ?_⟩
  refine (List.pairwise_map.mp pending.nodes.addresses).imp_of_mem ?_
  intro left right leftIn rightIn apart other inLeft inRight
  obtain ⟨endpoint, known, _, node, _⟩ :=
    (pending.listed left.address left.mTopic at_type other).mp ⟨left, leftIn, rfl, rfl, inLeft⟩
  obtain ⟨endpoint', known', _, node', _⟩ :=
    (pending.listed right.address right.mTopic at_type other).mp ⟨right, rightIn, rfl, rfl, inRight⟩
  obtain rfl := Option.some.inj (known.symm.trans known')
  exact apart (Option.some.inj (node.symm.trans node'))

theorem Orderly.completing_asleep :
    (tport.completing thread type id stream tstream).Asleep out (attachedTo tstream type) where
  orderly := orderly.completing due found given pending
  distinct := pending.attachedTo_nodup type
  each := by
    intro other inside
    obtain ⟨endpoint', known, given', attached, _⟩ := (pending.mem_attachedTo type other).mp inside
    refine ⟨endpoint', known, pending.waiting other endpoint' known given', attached, ?_⟩
    rintro creator at_stream awaits same
    obtain rfl := Option.some.inj (given'.symm.trans same)
    exact orderly.not_awaited due found given creator stream awaits rfl

variable (waits : endpoint.mTportTopic = none) (of_type : endpoint.mTopic.mType = type)
include waits of_type

variable (config) in
/-- A completion fails if somebody it makes ready has its removal deferred. Otherwise it
makes ready whoever is attached and of the kind, and then comes to the creator. -/
theorem Orderly.complete_cases :
    (∃ next, tport.complete config thread type id = .ok next ∧ Orderly next out ∧
      (∀ other ∈ attachedTo tstream type, ¬ tport.Marked other) ∧
      (∀ other ∈ attachedTo tstream type, ∀ endpoint,
        tport.endpoints.find other = some endpoint → next.Readied other endpoint) ∧
      (∀ other, other ∉ attachedTo tstream type → other ≠ id →
        next.endpoints.find other = tport.endpoints.find other) ∧
      if endpoint.mRemoved then next.Removed id else next.Readied id endpoint) ∨
    (∃ fault, tport.complete config thread type id = .error fault) ∧
      ∃ other ∈ attachedTo tstream type, tport.Marked other := by
  have lookup : (tport.completing thread type id stream tstream).streams.find stream =
      some { tstream with mReady := true } := RbTree.find_set_self _ _ _
  have asleep := orderly.completing_asleep due found given pending
  have walked := walk_outcome config lookup pending.nodes.addresses asleep
  have start : tport.complete config thread type id =
      (tport.completing thread type id stream tstream).follow
          (fun address tport => (tport.topicAt stream address).isOk)
          (completeTopic config type stream) (tstream.mTopics.map (·.address)) >>=
        Tport.completeCreator config type id := by
    have found' : (tport.take thread (.complete type id)).endpoints.find id = some endpoint := found
    have lookup' : (tport.take thread (.complete type id)).streams.find stream = some tstream :=
      pending.found
    simp only [Tport.complete, addStreamCompleteCb, Heap.read_some found', given, notNull,
      Heap.read_some lookup', bind, Except.bind, Bool.false_eq_true, ↓reduceIte]
    rfl
  rw [start]
  rcases walked with ⟨middle, ran, unmarked, woken, orderly'⟩ | ⟨⟨fault, failed⟩, marked⟩
  · have outside : id ∉ attachedTo tstream type := by
      intro inside
      obtain ⟨endpoint', known, _, attached, _⟩ := (pending.mem_attachedTo type id).mp inside
      obtain rfl := Option.some.inj (found.symm.trans known)
      exact attached waits
    have found' := (woken.others id outside).1.trans found
    have alone : ∀ at_thread, ∀ event ∈ middle.queues at_thread, event.Starts → event.id ≠ id := by
      rw [woken.shape]
      exact fun at_thread event member starts =>
        orderly.alone due trivial at_thread event member starts
    have stands : middle.Stands stream { tstream with mReady := true } := by
      refine pending.toStands.of_beside ?_ rfl rfl ?_ ?_ ?_
      · rw [woken.shape]
        exact lookup
      · intro other old known _
        by_cases inside : other ∈ attachedTo tstream type
        · exact ⟨_, (woken.each other inside old known).1, ⟨rfl, rfl, rfl⟩⟩
        · exact ⟨old, (woken.others other inside).1.trans known, ⟨rfl, rfl, rfl⟩⟩
      · intro other new known _
        by_cases inside : other ∈ attachedTo tstream type
        · obtain ⟨old, known', _⟩ := (pending.mem_attachedTo type other).mp inside
          obtain rfl := Option.some.inj ((woken.each other inside old known').1.symm.trans known)
          exact ⟨old, known', ⟨rfl, rfl, rfl⟩⟩
        · exact ⟨new, (woken.others other inside).1.symm.trans known, ⟨rfl, rfl, rfl⟩⟩
      · rw [woken.shape]
        exact Nat.le_refl _
    obtain ⟨next, created, orderly'', others, own⟩ := Orderly.completeCreator config
      found' given waits of_type orderly' alone stands rfl
    refine Or.inl ⟨next, ?_, orderly'', unmarked, ?_, ?_, own⟩
    · rw [ran]
      exact created
    · intro other inside endpoint' known
      have apart : other ≠ id := fun same => outside (same ▸ inside)
      obtain ⟨_, known', given', _, _⟩ := (pending.mem_attachedTo type other).mp inside
      obtain rfl := Option.some.inj (known.symm.trans known')
      have unready := pending.waiting other endpoint' known given'
      obtain ⟨readied, more⟩ := woken.each other inside endpoint' known
      obtain ⟨same, count⟩ := others other apart
      have none_before : tport.items.count other = 0 :=
        List.count_eq_zero.mpr ((orderly.each other endpoint' known).unready unready).1.items
      refine ⟨unready, ⟨_, same.trans readied, rfl⟩, ?_⟩
      rw [count, more]
      change tport.items.count other + _ = _
      rw [none_before, Nat.zero_add]
    · intro other elsewhere apart
      exact (others other apart).1.trans (woken.others other elsewhere).1
  · rw [failed]
    exact Or.inr ⟨⟨fault, rfl⟩, marked⟩

end Complete

/-- The completion works if and only if whoever is attached is of the creator's kind and
has no removal deferred. -/
theorem Orderly.works_iff (orderly : Orderly tport out) {thread : Nat} {type : TopicType}
    {id : EndpointId} (due : .complete type id ∈ tport.queues thread) :
    Works config tport thread type id ↔ tport.Clean type id := by
  obtain ⟨endpoint, stream, tstream, found, given, waits, of_type, pending⟩ := orderly.creator due
  have on_stream : tport.streamOf id = some stream :=
    Option.bind_eq_some_iff.mpr ⟨endpoint, found, given⟩
  have outcome := orderly.complete_cases config due found given pending waits of_type
  constructor
  · rintro ⟨after, ran, carried⟩ other endpoint' known given' attached
    rw [on_stream] at given'
    have unready := pending.waiting other endpoint' known given'
    rcases outcome with ⟨next, ran', _, unmarked, _, others, _⟩ | ⟨⟨fault, failed⟩, _⟩
    · obtain rfl := Except.ok.inj (ran'.symm.trans ran)
      by_cases kind : endpoint'.mTopic.mType = type
      · refine ⟨kind, Bool.eq_false_iff.mpr fun marked => ?_⟩
        exact unmarked other ((pending.mem_attachedTo type other).mpr
          ⟨endpoint', known, given', attached, kind⟩) ⟨endpoint', known, marked⟩
      · -- The completion does not come to an endpoint of the other kind.
        have elsewhere : other ∉ attachedTo tstream type := by
          intro inside
          obtain ⟨_, known', _, _, kind'⟩ := (pending.mem_attachedTo type other).mp inside
          obtain rfl := Option.some.inj (known.symm.trans known')
          exact kind kind'
        have apart : other ≠ id := by
          rintro rfl
          obtain rfl := Option.some.inj (found.symm.trans known)
          exact attached waits
        have same := (others other elsewhere apart).trans known
        have result := carried other endpoint' known (given'.trans on_stream.symm) (Or.inl attached)
        cases marked : endpoint'.mRemoved with
        | true =>
            rw [marked, if_pos rfl] at result
            exact absurd (same.symm.trans result.freed) (Option.some_ne_none _)
        | false =>
            rw [marked, if_neg Bool.false_ne_true] at result
            obtain ⟨_, known', ready⟩ := result.ready
            obtain rfl := Option.some.inj (same.symm.trans known')
            exact Bool.noConfusion (ready.symm.trans unready)
    · rw [failed] at ran
      cases ran
  · intro clean
    rcases outcome with ⟨next, ran, _, _, readied, _, own⟩ | ⟨_, other, inside, endpoint', known, marked⟩
    · refine ⟨next, ran, ?_⟩
      rintro other endpoint' known given' (attached | rfl)
      · obtain ⟨kind, unmarked⟩ := clean other endpoint' known given' attached
        rw [unmarked, if_neg Bool.false_ne_true]
        rw [on_stream] at given'
        exact readied other ((pending.mem_attachedTo type other).mpr
          ⟨endpoint', known, given', attached, kind⟩) endpoint' known
      · obtain rfl := Option.some.inj (found.symm.trans known)
        exact own
    · obtain ⟨_, known', given', attached, _⟩ := (pending.mem_attachedTo type other).mp inside
      obtain rfl := Option.some.inj (known.symm.trans known')
      have unmarked := (clean other endpoint' known (given'.trans on_stream.symm) attached).2
      exact Bool.noConfusion (marked.symm.trans unmarked)

theorem Orderly.complete (orderly : Orderly tport out) {thread : Nat} {type : TopicType}
    {id : EndpointId} (due : .complete type id ∈ tport.queues thread)
    (ran : tport.complete config thread type id = .ok next) : Orderly next out := by
  obtain ⟨endpoint, stream, tstream, found, given, waits, of_type, pending⟩ := orderly.creator due
  rcases orderly.complete_cases config due found given pending waits of_type with
    ⟨next', ran', orderly', _⟩ | ⟨⟨fault, failed⟩, _⟩
  · obtain rfl := Except.ok.inj (ran'.symm.trans ran)
    exact orderly'
  · rw [failed] at ran
    cases ran

/-- The next event of a thread that is not a completion. -/
theorem Orderly.event (orderly : Orderly tport out) {thread : Nat} {event : Event}
    (member : event ∈ tport.queues thread) (early : event.byHandler = false)
    (ran : callback config false event (tport.take thread event) = .ok next) :
    Orderly next out := by
  have taken := orderly.take member
  have added : ∀ {type id}, event = .add type id →
      (tport.take thread event).addEventCb type id = .ok next → Orderly next out := by
    rintro type id rfl ran
    obtain ⟨endpoint, read, _⟩ := bind_ok ran
    have found := Heap.find_of_read read
    obtain ⟨waits, of_type⟩ := (orderly.each id endpoint found).starts thread _ member rfl trivial
    obtain ⟨endpoint', read', inner⟩ := bind_ok ran
    obtain rfl := Except.ok.inj (read.symm.trans read')
    obtain ⟨stream, given, inner⟩ := bind_ok inner
    obtain ⟨tstream, read', _⟩ := bind_ok inner
    exact taken.addEventCb found (notNull_ok given) waits (Heap.find_of_read read') of_type
      (orderly.alone member trivial) ran
  have removed : ∀ {type id}, event = .remove type id →
      (tport.take thread event).removeEventCb config type id = .ok next → Orderly next out := by
    rintro type id rfl ran
    obtain ⟨endpoint, read, _⟩ := bind_ok ran
    have found := Heap.find_of_read read
    exact taken.removeEventCb found
      ((orderly.each id endpoint found).removes thread _ member rfl trivial) ran
  rcases event with ⟨_ | _, id⟩ | ⟨_ | _, id⟩ | ⟨_ | _, id⟩
  · exact added rfl ran
  · exact added rfl ran
  · exact removed rfl ran
  · exact removed rfl ran
  · cases early
  · cases early

theorem turn_orderly (orderly : Orderly tport out) (input : Turn) {more : List Notice}
    (ran : turn config input tport = .ok (next, more)) : Orderly next (out ++ more) := by
  have quiet : ∀ {result : Except Fault (Tport H S)},
      (∀ after, result = .ok after → Orderly after out) →
        result.map (·, ([] : List Notice)) = .ok (next, more) → Orderly next (out ++ more) := by
    intro result each silent
    obtain ⟨ended, rfl⟩ := silent_ok silent
    rw [List.append_nil]
    exact each next ended
  have destroyed : ∀ {type id}, (tport.destroy type id).map (·, [Notice.destroyed id]) =
      .ok (next, more) → Orderly next (out ++ more) := by
    intro type id ran
    cases result : tport.destroy type id with
    | error fault =>
        rw [result] at ran
        cases ran
    | ok after =>
        rw [result] at ran
        cases ran
        exact orderly.destroy result
  cases input with
  | createPub topic0 mReadyCb => exact quiet (fun after ran => orderly.create ran) ran
  | createSub topic0 mReadyCb => exact quiet (fun after ran => orderly.create ran) ran
  | destroyPub id => exact destroyed ran
  | destroySub id => exact destroyed ran
  | event thread =>
      dsimp only [turn] at ran
      split at ran
      · cases ran
        simpa using orderly
      · rename_i event chosen
        have early : event.byHandler = false := by simpa using List.find?_some chosen
        exact quiet (fun after ran =>
          orderly.event (List.mem_of_find?_eq_some chosen) early ran) ran
  | complete thread type id =>
      dsimp only [turn] at ran
      split at ran
      · rename_i due
        exact quiet (fun after ran => orderly.complete due ran) ran
      · cases ran
        simpa using orderly
  | dispatch id =>
      dsimp only [turn] at ran
      split at ran
      · rename_i member
        cases result : readyQueueCb id { tport with items := tport.items.erase id } with
        | error fault =>
            rw [result] at ran
            cases ran
        | ok after =>
            rw [result] at ran
            cases ran
            exact orderly.dispatch member result
      · cases ran
        simpa using orderly

theorem runTurns_orderly (orderly : Orderly tport out) (turns : List Turn) {more : List Notice}
    (ran : runTurns config turns tport = .ok (next, more)) : Orderly next (out ++ more) := by
  induction turns generalizing tport out more with
  | nil =>
      cases ran
      simpa using orderly
  | cons input rest ih =>
      obtain ⟨middle, first, later, one, two, rfl⟩ := Step.andThen_inv ran
      rw [← List.append_assoc]
      exact ih (turn_orderly orderly input one) two

/-- In every order of turns an endpoint is ready at most once and not behind its destroy
call, and a completion that is due works if and only if whoever is attached to the stream
is of the creator's kind and has no removal deferred. -/
theorem runTurns_works_iff (config : TportConfig H S) (handler : H) (turns : List Turn)
    (tport : Tport H S) (out : List Notice)
    (ran : runTurns config turns (.new handler) = .ok (tport, out)) :
    out.Pairwise Notice.InOrder ∧
      ∀ thread type id, .complete type id ∈ tport.queues thread →
        (Works config tport thread type id ↔ tport.Clean type id) := by
  have orderly : Orderly tport out := by
    simpa using runTurns_orderly (new_orderly handler) turns ran
  exact ⟨orderly.inOrder, fun thread type id due => orderly.works_iff due⟩

instance (tport : Tport H S) (type : TopicType) (id : EndpointId) :
    Decidable (tport.Clean type id) :=
  inferInstanceAs (Decidable (∀ other endpoint, tport.endpoints.find other = some endpoint →
    endpoint.mTportStream = tport.streamOf id → endpoint.mTportTopic ≠ none →
      endpoint.mTopic.mType = type ∧ endpoint.mRemoved = false))

/-- Two subscriptions for a topic, the second of which is added before the stream that
the first has created is complete. -/
def addedEarly : List Turn :=
  [.createSub ticks true, .createSub ticks true, .event 0]

/-- The second one is destroyed as well, and its removal is deferred. -/
def removedEarly : List Turn := addedEarly ++ [.destroySub 2, .event 0]

theorem runTurns_works_addedEarly : ∃ tport out,
    runTurns TcpMeshHandler.oneThread addedEarly (.new ⟨none⟩) = .ok (tport, out) ∧
      .complete .sub 0 ∈ tport.queues 0 ∧ tport.Clean .sub 0 ∧
        Works TcpMeshHandler.oneThread tport 0 .sub 0 := by
  obtain ⟨tport, out, ran, due, clean⟩ : ∃ tport out,
      runTurns TcpMeshHandler.oneThread addedEarly (.new ⟨none⟩) = .ok (tport, out) ∧
        .complete .sub 0 ∈ tport.queues 0 ∧ tport.Clean .sub 0 := by
    decide +kernel
  have works := (runTurns_works_iff TcpMeshHandler.oneThread ⟨none⟩ addedEarly tport out ran).2 0
    .sub 0 due
  exact ⟨tport, out, ran, due, clean, works.mpr clean⟩

/-- The completion removes the second one, and then reads the link that leads on from it. -/
theorem runTurns_frees_removedEarly : ∃ tport out,
    runTurns TcpMeshHandler.oneThread removedEarly (.new ⟨none⟩) = .ok (tport, out) ∧
      .complete .sub 0 ∈ tport.queues 0 ∧
        tport.complete TcpMeshHandler.oneThread 0 .sub 0 = .error .freed ∧
          ¬ Works TcpMeshHandler.oneThread tport 0 .sub 0 := by
  obtain ⟨tport, out, ran, due, freed⟩ : ∃ tport out,
      runTurns TcpMeshHandler.oneThread removedEarly (.new ⟨none⟩) = .ok (tport, out) ∧
        .complete .sub 0 ∈ tport.queues 0 ∧
          tport.complete TcpMeshHandler.oneThread 0 .sub 0 = .error .freed := by
    decide +kernel
  refine ⟨tport, out, ran, due, freed, ?_⟩
  rintro ⟨after, completed, _⟩
  rw [freed] at completed
  cases completed

end Tport

end Sbf
