import Sbf.CompletionSteps
import Sbf.EndpointSteps

set_option autoImplicit false

namespace Sbf.Tport

open Octets Topics

variable {H S : Type} {config : TportConfig H S} {tport next : Tport H S} {out : List Notice}

/-- Endpoints have been taken off the nodes of a stream, and the stream may be gone. -/
structure Departs (stream : StreamId) (ids : List EndpointId) (before after : Tport H S) : Prop where
  endpoints : after.endpoints = before.endpoints
  items : after.items = before.items
  fresh : after.fresh = before.fresh
  streams : ∀ other, other ≠ stream → after.streams.find other = before.streams.find other
  known : ∀ other, (after.streams.find other).isSome → (before.streams.find other).isSome
  lines : ∀ other, after.mLog.count (.removing other) =
    before.mLog.count (.removing other) + ids.count other
  queues : ∀ thread, (after.queues thread).Sublist (before.queues thread)

theorem Departs.refl (stream : StreamId) (tport : Tport H S) : Departs stream [] tport tport :=
  ⟨rfl, rfl, rfl, fun _ _ => rfl, fun _ there => there, fun _ => rfl,
    fun _ => List.Sublist.refl _⟩

theorem Departs.trans {stream : StreamId} {left right : List EndpointId}
    {first second third : Tport H S} (one : Departs stream left first second)
    (two : Departs stream right second third) : Departs stream (left ++ right) first third where
  endpoints := two.endpoints.trans one.endpoints
  items := two.items.trans one.items
  fresh := two.fresh.trans one.fresh
  streams other apart := (two.streams other apart).trans (one.streams other apart)
  known other there := one.known other (two.known other there)
  lines other := by rw [two.lines, one.lines, List.count_append, Nat.add_assoc]
  queues thread := (two.queues thread).trans (one.queues thread)

theorem isSome_of_set {stream other : StreamId} {tstream tstream' : TportStream S}
    (found : tport.streams.find stream = some tstream)
    (there : ((tport.streams.set stream tstream').find other).isSome) :
    (tport.streams.find other).isSome := by
  rw [RbTree.find_set] at there
  split at there
  · rename_i same
    rw [same, found]
    rfl
  · exact there

theorem detach_departs (type : TopicType) (id : EndpointId) (endpoint : Endpoint)
    {stream : StreamId} {tstream : TportStream S} (ttopic : TportTopic)
    (found : tport.streams.find stream = some tstream) :
    Departs stream [id] tport (tport.detach type id endpoint stream tstream ttopic) := by
  have streams : ∀ other, other ≠ stream → (tport.streams.set stream { tstream with
      mTopics := Topics.update tstream.mTopics (ttopic.unlink id type) }).find other =
        tport.streams.find other := fun other apart =>
    (RbTree.find_set _ _ _ _).trans (if_neg apart)
  have lines : ∀ other, (tport.mLog ++ [LogLine.removing id]).count (LogLine.removing other) =
      tport.mLog.count (LogLine.removing other) + [id].count other := by
    intro other
    rw [List.count_append]
    by_cases same : id = other <;> simp [same]
  cases type <;>
    exact ⟨rfl, rfl, rfl, streams, fun _ there => isSome_of_set found there, lines,
      fun _ => List.Sublist.refl _⟩

theorem removeStream_departs {stream : StreamId}
    (ran : tport.removeStream config stream = .ok next) : Departs stream [] tport next := by
  obtain ⟨tstream, _, ran⟩ := bind_ok ran
  cases ran
  refine ⟨rfl, rfl, rfl, ?_, ?_, ?_, ?_⟩
  · intro other apart
    exact (RbTree.find_erase _ _ _).trans (if_neg apart)
  · intro other there
    obtain ⟨tstream', there⟩ := Option.isSome_iff_exists.mp there
    exact Option.isSome_iff_exists.mpr ⟨tstream', (RbTree.find_erase_some there).2⟩
  · intro other
    simp [log, deleteEvents, List.count_append]
  · intro thread
    dsimp only [log, deleteEvents]
    split
    · rename_i same
      rw [same]
      exact List.filter_sublist
    · exact List.Sublist.refl _

theorem removeTopic_departs {stream : StreamId} {address : Nat}
    (ran : tport.removeTopic config stream address = .ok next) : Departs stream [] tport next := by
  obtain ⟨tstream, read, ran⟩ := bind_ok ran
  obtain ⟨⟨empty, removed⟩, _, ran⟩ := bind_ok ran
  have written : Departs stream [] tport
      { tport with streams := tport.streams.set stream removed } :=
    ⟨rfl, rfl, rfl, fun other apart => (RbTree.find_set _ _ _ _).trans (if_neg apart),
      fun _ there => isSome_of_set (Heap.find_of_read read) there, fun _ => rfl,
      fun _ => List.Sublist.refl _⟩
  dsimp only at ran
  split at ran
  · exact written.trans (removeStream_departs ran)
  · cases ran
    exact written

theorem leaveTopic_departs {stream : StreamId} {address : Nat} {left : List EndpointId}
    (ran : tport.leaveTopic config stream address left = .ok next) :
    Departs stream [] tport next := by
  unfold leaveTopic at ran
  split at ran
  · exact removeTopic_departs ran
  · cases ran
    exact .refl stream _

/-- A removal takes the endpoint off its node, and drops the node's reference to it. -/
theorem remove_departs {type : TopicType} {id : EndpointId} {endpoint : Endpoint}
    (ran : tport.remove config type id endpoint = .ok next) : ∃ stream middle,
      endpoint.mTportStream = some stream ∧ Departs stream [id] tport middle ∧
        middle.release id = .ok next := by
  obtain ⟨stream, given, ran⟩ := bind_ok ran
  obtain ⟨tstream, read, ran⟩ := bind_ok ran
  obtain ⟨address, _, ran⟩ := bind_ok ran
  obtain ⟨ttopic, _, ran⟩ := bind_ok ran
  split at ran
  · cases ran
  · obtain ⟨middle, left, ran⟩ := bind_ok ran
    have detached : Departs stream [id] tport
        (tport.detach type id endpoint stream tstream ttopic) :=
      detach_departs type id endpoint ttopic (Heap.find_of_read read)
    exact ⟨stream, middle, notNull_ok given, detached.trans (leaveTopic_departs left), ran⟩

theorem Departs.gone {stream : StreamId} {ids : List EndpointId} (departs : Departs stream ids tport next)
    {other : EndpointId} (apart : other ∉ ids) : next.Gone other ↔ tport.Gone other := by
  have same := departs.lines other
  rw [List.count_eq_zero.mpr apart, Nat.add_zero] at same
  rw [Gone, Gone, ← List.count_pos_iff, same, List.count_pos_iff]

section Remove

variable {id : EndpointId} {endpoint : Endpoint} (orderly : Orderly tport out)
  (found : tport.endpoints.find id = some endpoint)
include orderly found

/-- The node of a ready endpoint has lost a reference to it. -/
theorem Orderly.released (ready : endpoint.mReady = true) {stream : StreamId}
    {ids : List EndpointId} {middle : Tport H S}
    (apart : ∀ other at_stream, tport.Awaits other at_stream →
      middle.streams.find at_stream = tport.streams.find at_stream)
    (departs : Departs stream ids tport middle) (only : ∀ other ∈ ids, other = id)
    (ran : middle.release id = .ok next) : Orderly next out := by
  have found' : middle.endpoints.find id = some endpoint := by
    rw [departs.endpoints]
    exact found
  rw [release_eq found'] at ran
  cases ran
  have fits := orderly.each id endpoint found
  have own : ∀ endpoint',
      (if endpoint.mRefCount - 1 = 0 then middle.endpoints.erase id
        else middle.endpoints.set id
          { endpoint with mRefCount := endpoint.mRefCount - 1 }).find id = some endpoint' →
        endpoint' = { endpoint with mRefCount := endpoint.mRefCount - 1 } := by
    intro endpoint' known
    split at known
    · exact absurd rfl (RbTree.find_erase_some known).1
    · exact Option.some.inj (known.symm.trans (RbTree.find_set_self _ _ _))
  have others : ∀ other, other ≠ id →
      (if endpoint.mRefCount - 1 = 0 then middle.endpoints.erase id
        else middle.endpoints.set id
          { endpoint with mRefCount := endpoint.mRefCount - 1 }).find other =
        tport.endpoints.find other := by
    intro other differs
    rw [← departs.endpoints]
    split
    · rw [RbTree.find_erase, if_neg differs]
    · rw [RbTree.find_set, if_neg differs]
  have touches : Touches id tport { middle with
      endpoints := if endpoint.mRefCount - 1 = 0 then middle.endpoints.erase id
        else middle.endpoints.set id { endpoint with mRefCount := endpoint.mRefCount - 1 } } := by
    refine ⟨orderly.used found, Nat.le_of_eq departs.fresh.symm, departs.known, others, ?_, ?_,
      ?_, ?_, departs.queues⟩
    · intro endpoint' known
      exact ⟨endpoint, found, by rw [own endpoint' known]⟩
    · intro other _ inside
      exact departs.items ▸ inside
    · exact departs.items ▸ orderly.items
    · intro other differs gone
      exact (departs.gone (fun inside => differs (only other inside))).mp gone
  refine orderly.touch touches ?_ ?_ ?_
  · intro endpoint' known
    obtain rfl := own endpoint' known
    refine ⟨?_, ?_, fits.ready, fits.marked, ?_, ?_, fits.destroyed⟩
    · dsimp only
      rw [departs.fresh]
      exact fits.small
    · intro unready
      exact Bool.noConfusion (ready.symm.trans unready)
    · exact fun thread event member => fits.starts thread event ((departs.queues thread).subset member)
    · exact fun thread event member => fits.removes thread event ((departs.queues thread).subset member)
  · intro inside
    exact orderly.kept id (departs.items ▸ inside)
  · intro other at_stream awaits _
    have elsewhere : endpoint.mTportStream ≠ some at_stream := by
      intro given
      exact Bool.noConfusion (ready.symm.trans (orderly.awaited_unready awaits found given))
    refine (SameAt.of_other touches.fresh (apart other at_stream awaits) others ?_ ?_).keeps
    · intro endpoint' known
      obtain rfl := Option.some.inj (found.symm.trans known)
      exact elsewhere
    · intro endpoint' known
      rw [own endpoint' known]
      exact elsewhere

/-- The remove event of a destroyed endpoint. -/
theorem Orderly.removeEventCb (destroyed : endpoint.mDestroyed = true) {type : TopicType}
    (ran : tport.removeEventCb config type id = .ok next) : Orderly next out := by
  simp only [Tport.removeEventCb, Heap.read_some found, bind, Except.bind] at ran
  split at ran
  · cases ran
    exact orderly.flag found ⟨⟨rfl, rfl, rfl⟩, rfl⟩ rfl (fun _ => destroyed) (fun same => same)
  · rename_i ready
    have ready : endpoint.mReady = true := by simpa using ready
    obtain ⟨stream, middle, given, departs, released⟩ := remove_departs ran
    refine orderly.released found ready ?_ departs (fun other inside => List.mem_singleton.mp inside)
      released
    intro other at_stream awaits
    apply departs.streams
    rintro rfl
    exact Bool.noConfusion (ready.symm.trans (orderly.awaited_unready awaits found given))

end Remove

section Attach

variable {type : TopicType} {id : EndpointId} {endpoint : Endpoint} {stream : StreamId}
  {tstream : TportStream S} (found : tport.endpoints.find id = some endpoint)
  (given : endpoint.mTportStream = some stream) (waits : endpoint.mTportTopic = none)
include found given waits

theorem Stands.attach_listed (stands : tport.Stands stream tstream)
    (of_type : endpoint.mTopic.mType = type) {ttopic : TportTopic} {ensured : TportStream S}
    (made : tstream.Ensures ensured ttopic tport.fresh endpoint.mTopic.mTopic) (address : Nat)
    (name : CString) (at_type : TopicType) (other : EndpointId) :
    OnNode (update ensured.mTopics (ttopic.insertTail id type)) address name at_type other ↔
      ∃ endpoint', (tport.attached type id endpoint stream ttopic ensured).endpoints.find other =
          some endpoint' ∧ endpoint'.mTportStream = some stream ∧
        endpoint'.mTportTopic = some address ∧ endpoint'.mTopic.mType = at_type ∧
          endpoint'.mTopic.mTopic = name := by
  rw [onNode_insertTail made.nodes made.member, made.onNode, made.named, stands.listed]
  by_cases same : other = id
  · -- The endpoint was on no node, and is on this one now.
    subst same
    simp only [attached, RbTree.find_set_self, Option.some.injEq, exists_eq_left', given, found,
      waits, reduceCtorEq, false_and, and_false, false_or, and_true, true_and]
    constructor
    · rintro ⟨rfl, rfl, rfl⟩
      exact ⟨rfl, of_type, rfl⟩
    · rintro ⟨rfl, rfl, rfl⟩
      exact ⟨rfl, rfl, of_type⟩
  · simp only [attached, RbTree.find_set, same, ↓reduceIte, and_false, or_false]

theorem Stands.attach (stands : tport.Stands stream tstream)
    (of_type : endpoint.mTopic.mType = type) : ∃ tstream',
      (tport.attach type id endpoint stream tstream).Stands stream tstream' ∧
        tstream'.mReady = tstream.mReady := by
  have made := tstream.ensureTopic_ensures stands.nodes tport.fresh stands.small
    endpoint.mTopic.mTopic
  have new : id ∉ (tstream.ensureTopic tport.fresh endpoint.mTopic.mTopic).1.attached type := by
    intro member
    obtain ⟨endpoint', known, _, node, _⟩ := (stands.listed _ _ _ _).mp
      ((made.onNode _ _ _ _).mp ⟨_, made.member, rfl, rfl, member⟩)
    obtain rfl := Option.some.inj (found.symm.trans known)
    exact Option.some_ne_none _ (node.symm.trans waits)
  obtain ⟨waiters, distinct, members, total⟩ := stands.counted
  have own : id ∈ waiters := (members id).mpr
    ⟨endpoint, found, by simp [Endpoint.waits, given, waits]⟩
  refine ⟨_, ⟨RbTree.find_set_self _ _ _, ?_, ?_,
    stands.attach_listed found given waits of_type made, waiters.erase id, distinct.erase id, ?_, ?_⟩,
    made.ready⟩
  · exact made.nodes.update made.member (by simp) (by simp)
      ((made.nodes.linked _ made.member).insertTail new)
  · intro node inside
    rcases (mem_update made.member (by simp) node).mp inside with ⟨old, _⟩ | rfl
    · exact made.fresh node old
    · rw [TportTopic.insertTail_address]
      exact made.fresh _ made.member
  · intro other
    rw [distinct.mem_erase_iff, members]
    constructor
    · rintro ⟨apart, endpoint', known, waits'⟩
      exact ⟨endpoint', (RbTree.find_set _ _ _ _).trans ((if_neg apart).trans known), waits'⟩
    · rintro ⟨endpoint', known, waits'⟩
      rcases RbTree.find_set_some known with ⟨rfl, rfl⟩ | ⟨apart, old⟩
      · simp [Endpoint.waits] at waits'
      · exact ⟨apart, endpoint', old, waits'⟩
  · have moved := made.counted
    have fewer := List.length_erase_of_mem own
    have positive := List.length_pos_of_mem own
    simp only [length_update] at moved ⊢
    omega

omit given in
theorem Orderly.unready_of_waits (orderly : Orderly tport out) : endpoint.mReady = false :=
  Bool.eq_false_iff.mpr fun ready => (orderly.each id endpoint found).ready ready waits

variable (orderly : Orderly tport out) (lookup : tport.streams.find stream = some tstream)
  (of_type : endpoint.mTopic.mType = type)
  (alone : ∀ thread, ∀ event ∈ tport.queues thread, event.Starts → event.id ≠ id)
include orderly lookup of_type alone

theorem Orderly.attach : Orderly (tport.attach type id endpoint stream tstream) out := by
  have fits := orderly.each id endpoint found
  have own : ∀ endpoint',
      (tport.attach type id endpoint stream tstream).endpoints.find id = some endpoint' →
        endpoint' = { endpoint with
          mTportTopic := some (tstream.ensureTopic tport.fresh endpoint.mTopic.mTopic).1.address } :=
    fun endpoint' known => Option.some.inj (known.symm.trans (RbTree.find_set_self _ _ _))
  have others : ∀ other, other ≠ id →
      (tport.attach type id endpoint stream tstream).endpoints.find other =
        tport.endpoints.find other := fun other apart =>
    (RbTree.find_set _ _ _ _).trans (if_neg apart)
  have touches : Touches id tport (tport.attach type id endpoint stream tstream) := by
    refine ⟨orderly.used found, Nat.le_succ _, fun _ there => isSome_of_set lookup there, others, ?_,
      fun _ _ inside => inside, orderly.items,
      fun other _ gone => (attached_gone other).mp gone, fun _ => List.Sublist.refl _⟩
    intro endpoint' known
    exact ⟨endpoint, found, by rw [own endpoint' known]⟩
  refine orderly.touch touches ?_ (orderly.kept id) ?_
  · intro endpoint' known
    obtain rfl := own endpoint' known
    refine ⟨fun at_stream same => Nat.lt_succ_of_lt (fits.small at_stream same), ?_,
      fun _ => Option.some_ne_none _, fits.marked, ?_, fits.removes, fits.destroyed⟩
    · intro unready
      obtain ⟨⟨items, silent, here⟩, once⟩ := fits.unready unready
      exact ⟨⟨items, silent, fun gone => here ((attached_gone id).mp gone)⟩, once⟩
    · intro thread event member same starts
      exact absurd same (alone thread event member starts)
  · intro other at_stream awaits _
    by_cases here : at_stream = stream
    · subst here
      refine ⟨?_, fun other given => (attached_streamOf found other).trans given⟩
      intro tstream' pending
      obtain rfl := Option.some.inj (lookup.symm.trans pending.found)
      obtain ⟨attached, stands, same⟩ := pending.toStands.attach found given waits of_type
      refine ⟨attached, stands, same.trans pending.unready, ?_⟩
      intro other endpoint' known given'
      by_cases same : other = id
      · subst same
        rw [own endpoint' known]
        exact pending.waiting other endpoint found given
      · rw [others other same] at known
        exact pending.waiting other endpoint' known given'
    · have streams : (tport.attach type id endpoint stream tstream).streams.find at_stream =
          tport.streams.find at_stream := (RbTree.find_set _ _ _ _).trans (if_neg here)
      refine (SameAt.of_other touches.fresh streams others ?_ ?_).keeps
      · intro endpoint' known given'
        obtain rfl := Option.some.inj (found.symm.trans known)
        exact here (Option.some.inj (given'.symm.trans given))
      · intro endpoint' known given'
        rw [own endpoint' known] at given'
        exact here (Option.some.inj (given'.symm.trans given))

/-- The add event of an endpoint, or the completion for the endpoint that has none. -/
theorem Orderly.addEventCb (ran : tport.addEventCb type id = .ok next) : Orderly next out := by
  have attached := orderly.attach found given waits lookup of_type alone
  have known : (tport.attach type id endpoint stream tstream).endpoints.find id = some _ :=
    RbTree.find_set_self _ _ _
  simp only [Tport.addEventCb, Heap.read_some found, given, notNull, Heap.read_some lookup, bind,
    Except.bind] at ran
  split at ran
  · rename_i ready
    rw [ready_eq known] at ran
    cases ran
    have unready : endpoint.mReady = false := orderly.unready_of_waits found waits
    refine attached.ready known unready (Option.some_ne_none _) ?_
    rintro other at_stream awaits given'
    obtain rfl := Option.some.inj (given.symm.trans given')
    obtain ⟨tstream', pending⟩ := attached.pending other stream awaits
    obtain rfl := Option.some.inj ((RbTree.find_set_self _ _ _).symm.trans pending.found)
    have same : (tstream.ensureTopic tport.fresh endpoint.mTopic.mTopic).2.mReady =
        tstream.mReady := by
      unfold TportStream.ensureTopic
      split <;> rfl
    exact Bool.noConfusion (ready.symm.trans (same.symm.trans pending.unready))
  · cases ran
    exact attached

end Attach

end Sbf.Tport
