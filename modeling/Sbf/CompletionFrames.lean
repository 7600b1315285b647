import Sbf.StreamCompletion

set_option autoImplicit false

namespace Sbf

open Octets Topics

/-- Two endpoints on the same node, or waiting for the same one. -/
structure Endpoint.Beside (left right : Endpoint) : Prop where
  topic : left.mTopic = right.mTopic
  stream : left.mTportStream = right.mTportStream
  node : left.mTportTopic = right.mTportTopic

/-- Two endpoints that a stream cannot tell apart while it waits for its completion. -/
structure Endpoint.Like (left right : Endpoint) : Prop extends left.Beside right where
  ready : left.mReady = right.mReady

theorem Endpoint.Beside.waits {left right : Endpoint} (beside : left.Beside right)
    (stream : StreamId) : left.waits stream = right.waits stream := by
  rw [Endpoint.waits, Endpoint.waits, beside.stream, beside.node]

theorem Endpoint.given_of_waits {endpoint : Endpoint} {stream : StreamId}
    (waits : endpoint.waits stream = true) : endpoint.mTportStream = some stream := by
  simp only [Endpoint.waits, Bool.and_eq_true, decide_eq_true_eq] at waits
  exact waits.1

theorem Endpoint.Like.refl (endpoint : Endpoint) : endpoint.Like endpoint := ⟨⟨rfl, rfl, rfl⟩, rfl⟩

namespace Tport

variable {H S : Type}

/-- A stream and whoever is on it are as before. -/
structure SameAt (stream : StreamId) (before after : Tport H S) : Prop where
  streams : after.streams.find stream = before.streams.find stream
  forth : ∀ id endpoint, before.endpoints.find id = some endpoint →
    endpoint.mTportStream = some stream →
      ∃ endpoint', after.endpoints.find id = some endpoint' ∧ endpoint'.Like endpoint
  back : ∀ id endpoint', after.endpoints.find id = some endpoint' →
    endpoint'.mTportStream = some stream →
      ∃ endpoint, before.endpoints.find id = some endpoint ∧ endpoint'.Like endpoint
  fresh : before.fresh ≤ after.fresh

section SameAt

variable {tport after : Tport H S} {stream : StreamId} (fresh : tport.fresh ≤ after.fresh)
include fresh

/-- Nothing but the streams has changed, and the stream has not. -/
theorem SameAt.of_endpoints (streams : after.streams.find stream = tport.streams.find stream)
    (endpoints : after.endpoints = tport.endpoints) : SameAt stream tport after where
  streams := streams
  forth id endpoint found _ := by
    rw [endpoints]
    exact ⟨endpoint, found, .refl endpoint⟩
  back id endpoint found _ := by
    rw [endpoints] at found
    exact ⟨endpoint, found, .refl endpoint⟩
  fresh := fresh

variable {id : EndpointId} (streams : after.streams.find stream = tport.streams.find stream)
include streams

/-- An endpoint of another stream may change in any way, and vanish. -/
theorem SameAt.of_other
    (others : ∀ other, other ≠ id → after.endpoints.find other = tport.endpoints.find other)
    (before : ∀ endpoint, tport.endpoints.find id = some endpoint →
      endpoint.mTportStream ≠ some stream)
    (now : ∀ endpoint, after.endpoints.find id = some endpoint →
      endpoint.mTportStream ≠ some stream) : SameAt stream tport after where
  streams := streams
  forth other endpoint found given := by
    have apart : other ≠ id := by
      rintro rfl
      exact before endpoint found given
    exact ⟨endpoint, (others other apart).trans found, .refl endpoint⟩
  back other endpoint found given := by
    have apart : other ≠ id := by
      rintro rfl
      exact now endpoint found given
    exact ⟨endpoint, (others other apart).symm.trans found, .refl endpoint⟩
  fresh := fresh

/-- One endpoint has been exchanged for one like it. -/
theorem SameAt.of_like {endpoint endpoint' : Endpoint}
    (found : tport.endpoints.find id = some endpoint) (like : endpoint'.Like endpoint)
    (endpoints : after.endpoints = tport.endpoints.set id endpoint') :
    SameAt stream tport after where
  streams := streams
  forth other old known _ := by
    rw [endpoints]
    by_cases same : other = id
    · subst same
      obtain rfl := Option.some.inj (found.symm.trans known)
      exact ⟨endpoint', RbTree.find_set_self _ _ _, like⟩
    · exact ⟨old, (RbTree.find_set _ _ _ _).trans ((if_neg same).trans known), .refl old⟩
  back other new known _ := by
    rw [endpoints] at known
    rcases RbTree.find_set_some known with ⟨rfl, rfl⟩ | ⟨_, old⟩
    · exact ⟨endpoint, found, like⟩
    · exact ⟨new, old, .refl new⟩
  fresh := fresh

end SameAt

/-- A stream stands while its nodes stay as they are, and whoever is on them or waits. -/
theorem Stands.of_beside {before after : Tport H S} {stream : StreamId}
    {tstream tstream' : TportStream S} (stands : before.Stands stream tstream)
    (found : after.streams.find stream = some tstream')
    (topics : tstream'.mTopics = tstream.mTopics) (count : tstream'.mRefCount = tstream.mRefCount)
    (forth : ∀ id endpoint, before.endpoints.find id = some endpoint →
      endpoint.mTportStream = some stream →
        ∃ endpoint', after.endpoints.find id = some endpoint' ∧ endpoint'.Beside endpoint)
    (back : ∀ id endpoint', after.endpoints.find id = some endpoint' →
      endpoint'.mTportStream = some stream →
        ∃ endpoint, before.endpoints.find id = some endpoint ∧ endpoint'.Beside endpoint)
    (fresh : before.fresh ≤ after.fresh) : after.Stands stream tstream' where
  found := found
  nodes := by
    rw [topics]
    exact stands.nodes
  small ttopic inside := by
    rw [topics] at inside
    exact Nat.lt_of_lt_of_le (stands.small ttopic inside) fresh
  listed address name type id := by
    rw [topics, stands.listed]
    constructor
    · rintro ⟨endpoint, known, given, node, kind, named⟩
      obtain ⟨endpoint', known', beside⟩ := forth id endpoint known given
      exact ⟨endpoint', known', beside.stream.trans given, beside.node.trans node,
        beside.topic ▸ kind, beside.topic ▸ named⟩
    · rintro ⟨endpoint', known', given, node, kind, named⟩
      obtain ⟨endpoint, known, beside⟩ := back id endpoint' known' given
      exact ⟨endpoint, known, beside.stream ▸ given, beside.node ▸ node, beside.topic ▸ kind,
        beside.topic ▸ named⟩
  counted := by
    obtain ⟨waiters, distinct, members, total⟩ := stands.counted
    refine ⟨waiters, distinct, ?_, by rw [topics, count, total]⟩
    intro id
    rw [members]
    constructor
    · rintro ⟨endpoint, known, waits⟩
      obtain ⟨endpoint', known', beside⟩ := forth id endpoint known (Endpoint.given_of_waits waits)
      exact ⟨endpoint', known', (beside.waits stream).trans waits⟩
    · rintro ⟨endpoint', known', waits⟩
      obtain ⟨endpoint, known, beside⟩ := back id endpoint' known' (Endpoint.given_of_waits waits)
      exact ⟨endpoint, known, (beside.waits stream).symm.trans waits⟩

theorem Pending.of_same {before after : Tport H S} {stream : StreamId} {tstream : TportStream S}
    (pending : before.Pending stream tstream) (same : SameAt stream before after) :
    after.Pending stream tstream where
  toStands := by
    refine pending.toStands.of_beside (same.streams.trans pending.found) rfl rfl ?_ ?_ same.fresh
    · intro id endpoint found given
      obtain ⟨endpoint', found', like⟩ := same.forth id endpoint found given
      exact ⟨endpoint', found', like.toBeside⟩
    · intro id endpoint' found given
      obtain ⟨endpoint, found', like⟩ := same.back id endpoint' found given
      exact ⟨endpoint, found', like.toBeside⟩
  unready := pending.unready
  waiting id endpoint found given := by
    obtain ⟨endpoint', found', like⟩ := same.back id endpoint found given
    exact like.ready.trans (pending.waiting id endpoint' found' (like.stream ▸ given))

/-- What a step may do to a stream that waits for its completion: it goes on waiting, with
whoever was on it. -/
structure Keeps (stream : StreamId) (before after : Tport H S) : Prop where
  pending : ∀ tstream, before.Pending stream tstream → ∃ tstream', after.Pending stream tstream'
  members : ∀ id, before.streamOf id = some stream → after.streamOf id = some stream

theorem SameAt.keeps {before after : Tport H S} {stream : StreamId}
    (same : SameAt stream before after) : Keeps stream before after where
  pending tstream pending := ⟨tstream, pending.of_same same⟩
  members id given := by
    obtain ⟨endpoint, found, given⟩ := Option.bind_eq_some_iff.mp given
    obtain ⟨endpoint', found', like⟩ := same.forth id endpoint found given
    exact Option.bind_eq_some_iff.mpr ⟨endpoint', found', like.stream.trans given⟩

/-- Apart from one endpoint, the streams and the handler, nothing has changed; events may
have left the queues. -/
structure Touches (id : EndpointId) (before after : Tport H S) : Prop where
  used : id < before.fresh
  fresh : before.fresh ≤ after.fresh
  known : ∀ stream, (after.streams.find stream).isSome → (before.streams.find stream).isSome
  others : ∀ other, other ≠ id → after.endpoints.find other = before.endpoints.find other
  own : ∀ endpoint, after.endpoints.find id = some endpoint → ∃ endpoint',
    before.endpoints.find id = some endpoint' ∧ endpoint.mTportStream = endpoint'.mTportStream
  items : ∀ other, other ≠ id → other ∈ after.items → other ∈ before.items
  single : after.items.Nodup
  gone : ∀ other, other ≠ id → after.Gone other → before.Gone other
  queues : ∀ thread, (after.queues thread).Sublist (before.queues thread)

section Touches

variable {before after : Tport H S} {out : List Notice} {id : EndpointId}
  (touches : Touches id before after)
include touches

theorem Touches.untouched {other : EndpointId} (apart : other ≠ id)
    (untouched : before.Untouched out other) : after.Untouched out other where
  items member := untouched.items (touches.items other apart member)
  silent := untouched.silent
  here gone := untouched.here (touches.gone other apart gone)

theorem Touches.fits {other : EndpointId} {endpoint : Endpoint} (apart : other ≠ id)
    (fits : before.Fits out other endpoint) : after.Fits out other endpoint where
  small stream given := Nat.lt_of_lt_of_le (fits.small stream given) touches.fresh
  unready unready :=
    ⟨touches.untouched apart (fits.unready unready).1, (fits.unready unready).2⟩
  ready := fits.ready
  marked := fits.marked
  starts thread event member := fits.starts thread event ((touches.queues thread).subset member)
  removes thread event member := fits.removes thread event ((touches.queues thread).subset member)
  destroyed := fits.destroyed

/-- An endpoint keeps its stream. -/
theorem Touches.streamOf {other : EndpointId} {stream : StreamId}
    (given : after.streamOf other = some stream) : before.streamOf other = some stream := by
  obtain ⟨endpoint, found, given⟩ := Option.bind_eq_some_iff.mp given
  by_cases same : other = id
  · subst same
    obtain ⟨endpoint', found', kept⟩ := touches.own endpoint found
    exact Option.bind_eq_some_iff.mpr ⟨endpoint', found', kept.symm.trans given⟩
  · rw [touches.others other same] at found
    exact Option.bind_eq_some_iff.mpr ⟨endpoint, found, given⟩

theorem Touches.awaits {other : EndpointId} {stream : StreamId}
    (awaits : after.Awaits other stream) : before.Awaits other stream := by
  obtain ⟨⟨thread, type, member⟩, given⟩ := awaits
  exact ⟨⟨thread, type, (touches.queues thread).subset member⟩, touches.streamOf given⟩

/-- A step that touches one endpoint, and leaves it as it should be. -/
theorem Orderly.touch (orderly : Orderly before out)
    (own : ∀ endpoint, after.endpoints.find id = some endpoint → after.Fits out id endpoint)
    (kept : id ∈ after.items → .ready id ∉ out)
    (keeps : ∀ other stream, before.Awaits other stream →
      (∃ thread type, .complete type other ∈ after.queues thread) → Keeps stream before after) :
    Orderly after out where
  unused other large := by
    have large' := Nat.le_trans touches.fresh large
    obtain ⟨absent, untouched, silent, events⟩ := orderly.unused other large'
    have apart : other ≠ id := by
      rintro rfl
      exact Nat.not_le_of_lt touches.used large'
    exact ⟨(touches.others other apart).trans absent, touches.untouched apart untouched, silent,
      fun thread event member => events thread event ((touches.queues thread).subset member)⟩
  known stream there :=
    Nat.lt_of_lt_of_le (orderly.known stream (touches.known stream there)) touches.fresh
  each other endpoint found := by
    by_cases same : other = id
    · subst same
      exact own endpoint found
    · rw [touches.others other same] at found
      exact touches.fits same (orderly.each other endpoint found)
  distinct thread := (orderly.distinct thread).sublist (touches.queues thread)
  across left right apart first member second member' :=
    orderly.across left right apart first ((touches.queues left).subset member) second
      ((touches.queues right).subset member')
  items := touches.single
  kept other member := by
    by_cases same : other = id
    · subst same
      exact kept member
    · exact orderly.kept other (touches.items other same member)
  inOrder := orderly.inOrder
  given thread type other member := by
    have member' := (touches.queues thread).subset member
    obtain ⟨stream, given⟩ := orderly.given thread type other member'
    exact ⟨stream, (keeps other stream ⟨⟨thread, type, member'⟩, given⟩
      ⟨thread, type, member⟩).members other given⟩
  completes left right stream awaits awaits' :=
    orderly.completes left right stream (touches.awaits awaits) (touches.awaits awaits')
  pending other stream awaits := by
    obtain ⟨tstream, pending⟩ := orderly.pending other stream (touches.awaits awaits)
    exact (keeps other stream (touches.awaits awaits) awaits.1).pending tstream pending

end Touches

end Tport

end Sbf
