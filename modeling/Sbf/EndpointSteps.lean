import Sbf.TportSound

set_option autoImplicit false

namespace Sbf.Tport

open Octets Topics

variable {H S : Type}

/-- A ready endpoint may have a callback on its way. -/
theorem Sound.makeReady {tport : Tport H S} (sound : Sound tport) {id : EndpointId}
    {endpoint : Endpoint} (found : tport.endpoints.find id = some endpoint)
    (attached : endpoint.mTportTopic ≠ none) :
    ∃ next after, tport.ready id = .ok next ∧ Sound next ∧
      next.endpoints.find id = some after ∧ after.mRemoved = endpoint.mRemoved := by
  have marked := sound.marked id endpoint found ∘ Or.inl
  simp only [Tport.ready, Heap.read_some found, bind, Except.bind]
  split
  · refine ⟨_, _, rfl, sound.setEndpoint
      { endpoint with mReady := true, mRefCount := endpoint.mRefCount + 1 } found rfl rfl rfl
      (tport.items ++ [id]) ?_ ?_ (fun _ => attached) (fun same => same) marked
      (fun _ _ _ _ _ => rfl), RbTree.find_set_self _ _ _, rfl⟩
    · intro other differs
      simp [List.count_append, Ne.symm differs]
    · simp only [List.count_append, List.count_singleton_self]
      omega
  · exact ⟨_, _, rfl, sound.setEndpoint { endpoint with mReady := true } found rfl rfl rfl
      tport.items (fun _ _ => rfl) rfl (fun _ => attached) (fun same => same) marked
      (fun _ _ _ _ _ => rfl), RbTree.find_set_self _ _ _, rfl⟩

section Attach

variable {tport : Tport H S} (sound : Sound tport) {type : TopicType} {id : EndpointId}
  {endpoint : Endpoint} {stream : StreamId} {tstream : TportStream S}
  (found : tport.endpoints.find id = some endpoint)
  (given : endpoint.mTportStream = some stream)
  (lookup : tport.streams.find stream = some tstream)
  (waits : endpoint.mTportTopic = none) (here : ¬ tport.Gone id)
  (of_type : endpoint.mTopic.mType = type)

/-- What attaching makes of a transport, given the node and the stream with it. -/
def attached (tport : Tport H S) (type : TopicType) (id : EndpointId) (endpoint : Endpoint)
    (stream : StreamId) (ttopic : TportTopic) (ensured : TportStream S) : Tport H S :=
  { tport.log (.adding id) with
    streams := tport.streams.set stream
      { ensured with
        mTopics := Topics.update ensured.mTopics (ttopic.insertTail id type)
        mRefCount := ensured.mRefCount - 1 }
    endpoints := tport.endpoints.set id { endpoint with mTportTopic := some ttopic.address }
    fresh := tport.fresh + 1 }

variable {ttopic : TportTopic} {ensured : TportStream S}

@[simp] theorem attached_added (other : EndpointId) :
    (tport.attached type id endpoint stream ttopic ensured).Added other ↔
      tport.Added other ∨ other = id := by
  simp [attached, Added, log]

@[simp] theorem attached_gone (other : EndpointId) :
    (tport.attached type id endpoint stream ttopic ensured).Gone other ↔ tport.Gone other := by
  simp [attached, Gone, log]

include found in
theorem attached_streamOf (other : EndpointId) :
    (tport.attached type id endpoint stream ttopic ensured).streamOf other =
      tport.streamOf other :=
  streamOf_set { endpoint with mTportTopic := some ttopic.address } found rfl other

variable (made : tstream.Ensures ensured ttopic tport.fresh endpoint.mTopic.mTopic)

include sound found lookup made in
theorem Sound.attached_numbered :
    Numbered (tport.attached type id endpoint stream ttopic ensured) where
  freshStreams := by
    apply RbTree.forall_set
    · refine ⟨Nat.lt_succ_of_lt (sound.freshStreams stream tstream lookup).1, ?_⟩
      intro node inside
      rcases (mem_update made.member (by simp) node).mp inside with ⟨old, _⟩ | rfl
      · exact made.fresh node old
      · rw [TportTopic.insertTail_address]
        exact made.fresh ttopic made.member
    · intro other tstream' _ old
      have small := sound.freshStreams other tstream' old
      exact ⟨Nat.lt_succ_of_lt small.1, fun node inside => Nat.lt_succ_of_lt (small.2 node inside)⟩
  freshEndpoints := by
    have grows : ∀ other endpoint', tport.endpoints.find other = some endpoint' →
        other < tport.fresh + 1 ∧
          ∀ at_stream, endpoint'.mTportStream = some at_stream → at_stream < tport.fresh + 1 := by
      intro other endpoint' old
      have small := sound.freshEndpoints other endpoint' old
      exact ⟨Nat.lt_succ_of_lt small.1, fun at_stream same => Nat.lt_succ_of_lt (small.2 _ same)⟩
    exact RbTree.forall_set (grows id endpoint found) (fun other endpoint' _ => grows other endpoint')
  freshLines other line := by
    rw [attached_added, attached_gone] at line
    apply Nat.lt_succ_of_lt
    rcases line with (before | rfl) | away
    · exact sound.freshLines other (Or.inl before)
    · exact (sound.freshEndpoints other endpoint found).1
    · exact sound.freshLines other (Or.inr away)

include sound found lookup waits in
theorem Sound.unlisted (address : Nat) (name : CString) (at_type : TopicType) :
    ¬ OnNode tstream.mTopics address name at_type id := by
  intro on
  obtain ⟨other, same, _, _, node, _⟩ := (sound.listed stream tstream lookup _ _ _ _).mp on
  rw [found] at same
  cases same
  rw [waits] at node
  cases node

include sound found given lookup waits here of_type made

theorem Sound.attached_listed (at_stream : StreamId) (tstream' : TportStream S)
    (lookup' : (tport.attached type id endpoint stream ttopic ensured).streams.find at_stream =
      some tstream') (address : Nat) (name : CString) (at_type : TopicType) (at_id : EndpointId) :
    OnNode tstream'.mTopics address name at_type at_id ↔ ∃ endpoint',
      (tport.attached type id endpoint stream ttopic ensured).endpoints.find at_id =
        some endpoint' ∧
      ¬ (tport.attached type id endpoint stream ttopic ensured).Gone at_id ∧
      endpoint'.mTportStream = some at_stream ∧ endpoint'.mTportTopic = some address ∧
      endpoint'.mTopic.mType = at_type ∧ endpoint'.mTopic.mTopic = name := by
  rw [attached_gone]
  rcases RbTree.find_set_some lookup' with ⟨rfl, rfl⟩ | ⟨elsewhere, before⟩
  · rw [onNode_insertTail made.nodes made.member, made.onNode, made.named,
      sound.listed at_stream tstream lookup]
    by_cases same : at_id = id
    · -- The endpoint was on no node, and is on this one now.
      subst same
      simp only [attached, RbTree.find_set_self, Option.some.injEq, exists_eq_left', given, found,
        waits, reduceCtorEq, false_and, and_false, false_or, and_true, true_and]
      constructor
      · rintro ⟨rfl, rfl, rfl⟩
        exact ⟨here, rfl, of_type, rfl⟩
      · rintro ⟨_, rfl, rfl, rfl⟩
        exact ⟨rfl, rfl, of_type⟩
    · simp only [attached, RbTree.find_set, same, ↓reduceIte, and_false, or_false]
  · rw [sound.listed at_stream tstream' before]
    by_cases same : at_id = id
    · subst same
      simp only [attached, RbTree.find_set_self, found, Option.some.injEq, exists_eq_left', given,
        Ne.symm elsewhere, false_and, and_false]
    · simp only [attached, RbTree.find_set, same, ↓reduceIte]

theorem Sound.attached_lists : Lists (tport.attached type id endpoint stream ttopic ensured) where
  nodes := by
    have new : id ∉ ttopic.attached type := fun member =>
      sound.unlisted found lookup waits _ _ _
        ((made.onNode _ _ _ _).mp ⟨ttopic, made.member, rfl, rfl, member⟩)
    apply RbTree.forall_set
    · exact made.nodes.update made.member (by simp) (by simp)
        ((made.nodes.linked ttopic made.member).insertTail new)
    · exact fun other tstream' _ => sound.nodes other tstream'
  occupied := by
    apply RbTree.forall_set
    · intro node inside
      rcases (mem_update made.member (by simp) node).mp inside with ⟨old, apart⟩ | rfl
      · rcases made.origin node old with rfl | before
        · exact absurd rfl apart
        · exact sound.occupied stream tstream lookup node before
      · exact ⟨type, by simp [TportTopic.attached_insertTail]⟩
    · exact fun other tstream' _ => sound.occupied other tstream'
  listed := sound.attached_listed found given lookup waits here of_type made

omit waits here of_type made in
theorem Sound.attached_lifetimes :
    Lifetimes (tport.attached type id endpoint stream ttopic ensured) where
  given other endpoint' lookup' present := by
    rw [attached_gone] at present
    rcases RbTree.find_set_some lookup' with ⟨rfl, rfl⟩ | ⟨_, before⟩
    · exact ⟨stream, given, RbTree.isSome_set (by rw [lookup]; rfl) _ _⟩
    · obtain ⟨at_stream, given', there⟩ := sound.given other endpoint' before present
      exact ⟨at_stream, given', RbTree.isSome_set there _ _⟩
  added := by
    apply RbTree.forall_set
    · exact iff_of_true ((attached_added id).mpr (Or.inr rfl)) (Option.some_ne_none _)
    · intro other endpoint' elsewhere before
      rw [attached_added, or_iff_left elsewhere]
      exact sound.added other endpoint' before
  ready := by
    apply RbTree.forall_set
    · exact fun _ => Option.some_ne_none _
    · exact fun other endpoint' _ => sound.ready other endpoint'
  gone other line := by
    rw [attached_added]
    exact Or.inl (sound.gone other ((attached_gone other).mp line))
  kept other line present := by
    rw [attached_gone] at present
    rcases (attached_added other).mp line with before | rfl
    · exact RbTree.isSome_set (sound.kept other before present) _ _
    · exact RbTree.isSome_set (by rw [found]; rfl) _ _
  marked := by
    simp only [attached_gone]
    apply RbTree.forall_set
    · exact sound.marked id endpoint found
    · exact fun other endpoint' _ => sound.marked other endpoint'

omit here of_type in
theorem Sound.attached_references :
    References (tport.attached type id endpoint stream ttopic ensured) where
  referred := by
    simp only [attached_gone]
    apply RbTree.forall_set
    · exact sound.referred id endpoint found
    · exact fun other endpoint' _ => sound.referred other endpoint'
  queued other member := RbTree.isSome_set (sound.queued other member) _ _
  counted other tstream' lookup' := by
    -- The stream loses the reference of the endpoint that waited.
    have counts := RbTree.count_set tport.endpoints (fun _ endpoint => endpoint.waits other) id
      { endpoint with mTportTopic := some ttopic.address }
    have before_waits : endpoint.waits other = decide (stream = other) := by
      simp [Endpoint.waits, given, waits]
    have after_waits :
        Endpoint.waits other { endpoint with mTportTopic := some ttopic.address } = false := by
      simp [Endpoint.waits]
    rw [found, Option.elim_some, before_waits, after_waits] at counts
    rcases RbTree.find_set_some lookup' with ⟨rfl, rfl⟩ | ⟨elsewhere, before⟩
    · have total := sound.counted other tstream lookup
      have moved := made.counted
      simp only [decide_true, Bool.toNat_true, Bool.toNat_false] at counts
      simp only [waiting, attached, length_update] at total ⊢
      omega
    · rw [decide_eq_false (Ne.symm elsewhere)] at counts
      rw [sound.counted other tstream' before, waiting, waiting, ← Nat.add_right_cancel counts]
      rfl

variable (only : ∀ thread, ∀ event ∈ tport.queues thread, event.id = id → event.Removes)
  (completed : ∀ thread, ∀ event ∈ tport.queues thread, event.Completes →
    tport.streamOf event.id ≠ some stream)
include only completed

omit given waits here of_type in
theorem Sound.attached_events (thread : Nat) (event : Event) (member : event ∈ tport.queues thread) :
    ∃ endpoint' at_stream tstream',
      (tport.attached type id endpoint stream ttopic ensured).Due thread event endpoint' at_stream
        tstream' := by
  obtain ⟨endpoint', at_stream, tstream', due⟩ := sound.events thread event member
  have present : ¬ (tport.attached type id endpoint stream ttopic ensured).Gone event.id :=
    mt (attached_gone event.id).mp due.here
  have there : ∃ tstream'', (tport.attached type id endpoint stream ttopic ensured).streams.find
        at_stream = some tstream'' ∧ tstream''.mThread = tstream'.mThread ∧
      (at_stream ≠ stream → tstream'' = tstream') := by
    by_cases same : at_stream = stream
    · subst same
      obtain rfl : tstream = tstream' := Option.some.inj (lookup.symm.trans due.found)
      exact ⟨_, RbTree.find_set_self _ _ _, made.thread, fun apart => absurd rfl apart⟩
    · exact ⟨tstream', (RbTree.find_set _ _ _ _).trans ((if_neg same).trans due.found), rfl,
        fun _ => rfl⟩
  obtain ⟨tstream'', lookup'', at_thread, kept⟩ := there
  by_cases own : event.id = id
  · obtain rfl : endpoint = endpoint' := by
      have known := due.known
      rw [own, found] at known
      exact Option.some.inj known
    have removes := only thread event member own
    have not_starts := Event.Removes.not_starts removes
    exact ⟨{ endpoint with mTportTopic := some ttopic.address }, at_stream, tstream'',
      by rw [own]; exact RbTree.find_set_self _ _ _, due.given, lookup'', at_thread.trans due.thread,
      due.type, present, fun starts => absurd starts not_starts, due.removes,
      fun completes => absurd (Event.Completes.starts completes) not_starts⟩
  · have known : (tport.attached type id endpoint stream ttopic ensured).endpoints.find event.id =
        some endpoint' := (RbTree.find_set _ _ _ _).trans ((if_neg own).trans due.known)
    refine ⟨endpoint', at_stream, tstream'', due.of_same known lookup'' at_thread present ?_⟩
    intro completes
    rw [kept (fun same => completed thread event member completes (same ▸ due.streamOf))]
    exact ⟨rfl, rfl⟩

omit made in
/-- An endpoint that waits can be put on its node. -/
theorem Sound.attach : Sound (tport.attach type id endpoint stream tstream) := by
  have made := tstream.ensureTopic_ensures (sound.nodes stream tstream lookup) tport.fresh
    (sound.freshStreams stream tstream lookup).2 endpoint.mTopic.mTopic
  exact
    { sound.attached_numbered found lookup made,
      sound.attached_lists found given lookup waits here of_type made,
      sound.attached_lifetimes found given lookup,
      sound.attached_references found given lookup waits made with
      events := sound.attached_events found lookup made only completed
      ordered := fun thread => apart_congr (sound.ordered thread)
        (fun event _ => attached_streamOf found event.id) }

end Attach

section Detach

variable {tport : Tport H S} (sound : Sound tport) {type : TopicType} {id : EndpointId}
  {endpoint : Endpoint} {stream : StreamId} {tstream : TportStream S} {ttopic : TportTopic}
  (found : tport.endpoints.find id = some endpoint) (here : ¬ tport.Gone id)
  (given : endpoint.mTportStream = some stream)
  (lookup : tport.streams.find stream = some tstream) (member : ttopic ∈ tstream.mTopics)
  (node : endpoint.mTportTopic = some ttopic.address) (of_type : endpoint.mTopic.mType = type)
  (destroyed : endpoint.mDestroyed = true)
  (only : ∀ thread, ∀ event ∈ tport.queues thread, event.id ≠ id)

/-- A transport that an endpoint has left, with what has become of the stream's nodes. -/
def detached (tport : Tport H S) (id : EndpointId) (endpoint : Endpoint) (stream : StreamId)
    (tstream : TportStream S) (mTopics : List TportTopic) (mRefCount : Int) : Tport H S :=
  { tport.log (.removing id) with
    streams := tport.streams.set stream
      { tstream with mTopics := mTopics, mRefCount := mRefCount }
    endpoints := tport.endpoints.set id { endpoint with mRefCount := endpoint.mRefCount - 1 } }

variable {mTopics : List TportTopic} {mRefCount : Int}

@[simp] theorem detached_added (other : EndpointId) :
    (tport.detached id endpoint stream tstream mTopics mRefCount).Added other ↔
      tport.Added other := by
  simp [detached, Added, log]

@[simp] theorem detached_gone (other : EndpointId) :
    (tport.detached id endpoint stream tstream mTopics mRefCount).Gone other ↔
      tport.Gone other ∨ other = id := by
  simp [detached, Gone, log]

variable (nodes : Nodes mTopics) (occupied : ∀ other ∈ mTopics, other.Occupied)
  (small : ∀ other ∈ mTopics, other.address < tport.fresh)
  (counted : mRefCount - mTopics.length = tstream.mRefCount - tstream.mTopics.length)
  (onNode : ∀ address name at_type other, OnNode mTopics address name at_type other ↔
    OnNode tstream.mTopics address name at_type other ∧
      ¬ (address = ttopic.address ∧ at_type = type ∧ other = id))

include sound found lookup small in
theorem Sound.detached_numbered :
    Numbered (tport.detached id endpoint stream tstream mTopics mRefCount) where
  freshStreams := by
    apply RbTree.forall_set
    · exact ⟨(sound.freshStreams stream tstream lookup).1, small⟩
    · exact fun other tstream' _ => sound.freshStreams other tstream'
  freshEndpoints := by
    apply RbTree.forall_set
    · exact sound.freshEndpoints id endpoint found
    · exact fun other endpoint' _ => sound.freshEndpoints other endpoint'
  freshLines other line := by
    rw [detached_added, detached_gone] at line
    rcases line with before | before | rfl
    · exact sound.freshLines other (Or.inl before)
    · exact sound.freshLines other (Or.inr before)
    · exact (sound.freshEndpoints other endpoint found).1

include sound found given lookup node of_type nodes occupied onNode in
theorem Sound.detached_lists :
    Lists (tport.detached id endpoint stream tstream mTopics mRefCount) where
  nodes := RbTree.forall_set nodes (fun other tstream' _ => sound.nodes other tstream')
  occupied := RbTree.forall_set occupied (fun other tstream' _ => sound.occupied other tstream')
  listed other tstream' lookup' address name at_type at_id := by
    rw [detached_gone]
    rcases RbTree.find_set_some lookup' with ⟨rfl, rfl⟩ | ⟨elsewhere, before⟩
    · rw [onNode, sound.listed other tstream lookup]
      by_cases same : at_id = id
      · subst same
        simp only [detached, RbTree.find_set_self, found, Option.some.injEq, exists_eq_left', given,
          node, or_true, not_true_eq_false, false_and, iff_false]
        rintro ⟨⟨_, _, rfl, rfl, _⟩, differs⟩
        exact differs ⟨rfl, of_type, trivial⟩
      · simp only [detached, RbTree.find_set, same, ↓reduceIte, and_false, not_false_eq_true,
          and_true, or_false]
    · rw [sound.listed other tstream' before]
      by_cases same : at_id = id
      · subst same
        simp only [detached, RbTree.find_set_self, found, Option.some.injEq, exists_eq_left', given,
          Ne.symm elsewhere, false_and, and_false]
      · simp only [detached, RbTree.find_set, same, ↓reduceIte, or_false]

include sound found node destroyed in
theorem Sound.detached_lifetimes :
    Lifetimes (tport.detached id endpoint stream tstream mTopics mRefCount) where
  given other endpoint' lookup' present := by
    rw [detached_gone] at present
    rcases RbTree.find_set_some lookup' with ⟨rfl, rfl⟩ | ⟨_, before⟩
    · exact absurd (Or.inr rfl) present
    · obtain ⟨at_stream, given', there⟩ :=
        sound.given other endpoint' before (fun away => present (Or.inl away))
      exact ⟨at_stream, given', RbTree.isSome_set there _ _⟩
  added := by
    simp only [detached_added]
    apply RbTree.forall_set
    · exact sound.added id endpoint found
    · exact fun other endpoint' _ => sound.added other endpoint'
  ready := by
    apply RbTree.forall_set
    · exact sound.ready id endpoint found
    · exact fun other endpoint' _ => sound.ready other endpoint'
  gone other line := by
    rw [detached_added]
    rcases (detached_gone other).mp line with before | rfl
    · exact sound.gone other before
    · exact (sound.added other endpoint found).mpr (by rw [node]; exact Option.some_ne_none _)
  kept other line present := by
    rw [detached_added] at line
    rw [detached_gone] at present
    exact RbTree.isSome_set (sound.kept other line (fun away => present (Or.inl away))) _ _
  marked := by
    simp only [detached_gone]
    apply RbTree.forall_set
    · exact fun _ => destroyed
    · intro other endpoint' elsewhere before
      rw [or_iff_left elsewhere]
      exact sound.marked other endpoint' before

include sound found here lookup counted in
theorem Sound.detached_references :
    References (tport.detached id endpoint stream tstream mTopics mRefCount) where
  referred := by
    simp only [detached_gone]
    apply RbTree.forall_set
    · have count := sound.referred id endpoint found
      rw [if_neg here] at count
      rw [if_pos (Or.inr rfl)]
      change endpoint.mRefCount - 1 = 0 + (tport.items.count id : Int)
      omega
    · intro other endpoint' elsewhere before
      simp only [elsewhere, or_false]
      exact sound.referred other endpoint' before
  queued other inside := RbTree.isSome_set (sound.queued other inside) _ _
  counted other tstream' lookup' := by
    have same := waiting_set { endpoint with mRefCount := endpoint.mRefCount - 1 } found rfl rfl other
    change tstream'.mRefCount = tstream'.mTopics.length + ((tport.endpoints.set id _).count _ : Nat)
    rw [same]
    rcases RbTree.find_set_some lookup' with ⟨rfl, rfl⟩ | ⟨_, before⟩
    · have total := sound.counted other tstream lookup
      dsimp only
      omega
    · exact sound.counted other tstream' before

include sound lookup member only in
theorem Sound.detached_events (thread : Nat) (event : Event) (inside : event ∈ tport.queues thread) :
    ∃ endpoint' at_stream tstream',
      (tport.detached id endpoint stream tstream mTopics mRefCount).Due thread event endpoint'
        at_stream tstream' := by
  obtain ⟨endpoint', at_stream, tstream', due⟩ := sound.events thread event inside
  have own := only thread event inside
  have present : ¬ (tport.detached id endpoint stream tstream mTopics mRefCount).Gone event.id := by
    rw [detached_gone]
    exact fun either => either.elim due.here own
  have known : (tport.detached id endpoint stream tstream mTopics mRefCount).endpoints.find
      event.id = some endpoint' := (RbTree.find_set _ _ _ _).trans ((if_neg own).trans due.known)
  by_cases same : at_stream = stream
  · subst same
    obtain rfl : tstream = tstream' := Option.some.inj (lookup.symm.trans due.found)
    refine ⟨endpoint', at_stream, _,
      due.of_same known (RbTree.find_set_self _ _ _) rfl present ?_⟩
    -- A stream with a node is not waiting for its completion.
    intro completes
    rw [(due.completes completes).2.1] at member
    cases member
  · exact ⟨endpoint', at_stream, tstream', due.of_same known
      ((RbTree.find_set _ _ _ _).trans ((if_neg same).trans due.found)) rfl present
      (fun _ => ⟨rfl, rfl⟩)⟩

include sound found here given lookup member node of_type destroyed only nodes occupied small
  counted onNode in
/-- An endpoint that is attached can be taken off its node, with the node or without
it; its own reference goes, and nobody frees anything yet. -/
theorem Sound.detach : Sound (tport.detached id endpoint stream tstream mTopics mRefCount) :=
  { sound.detached_numbered found lookup small,
    sound.detached_lists found given lookup node of_type nodes occupied onNode,
    sound.detached_lifetimes found node destroyed,
    sound.detached_references found here lookup counted with
    events := sound.detached_events lookup member only
    ordered := fun thread => apart_congr (sound.ordered thread) (fun event _ =>
      streamOf_set { endpoint with mRefCount := endpoint.mRefCount - 1 } found rfl event.id) }

end Detach

/-- An endpoint without references is in nobody's way. -/
theorem Sound.freeEndpoint {tport : Tport H S} (sound : Sound tport) {id : EndpointId}
    {endpoint : Endpoint} (found : tport.endpoints.find id = some endpoint) (away : tport.Gone id)
    (unused : endpoint.mRefCount = 0) :
    Sound { tport with endpoints := tport.endpoints.erase id } := by
  have no_items : tport.items.count id = 0 := by
    have count := sound.referred id endpoint found
    rw [if_pos away, unused] at count
    omega
  have no_wait : ∀ stream, endpoint.waits stream = false := by
    intro stream
    have placed := (sound.added id endpoint found).mp (sound.gone id away)
    simp [Endpoint.waits, placed]
  have elsewhere : ∀ other, ¬ tport.Gone other → other ≠ id := fun other present same =>
    present (same ▸ away)
  have same : ∀ other, ¬ tport.Gone other →
      (tport.endpoints.erase id).find other = tport.endpoints.find other := by
    intro other present
    rw [RbTree.find_erase, if_neg (elsewhere other present)]
  have before : ∀ {other endpoint'}, (tport.endpoints.erase id).find other = some endpoint' →
      tport.endpoints.find other = some endpoint' :=
    fun lookup => (RbTree.find_erase_some lookup).2
  exact { sound with
    freshEndpoints := fun other endpoint' lookup => sound.freshEndpoints other endpoint' (before lookup)
    listed := by
      intro stream tstream lookup address name type other
      rw [sound.listed stream tstream lookup]
      apply exists_congr
      intro endpoint'
      constructor
      · rintro ⟨known, present, rest⟩
        exact ⟨(same other present).trans known, present, rest⟩
      · rintro ⟨known, present, rest⟩
        exact ⟨before known, present, rest⟩
    given := fun other endpoint' lookup => sound.given other endpoint' (before lookup)
    added := fun other endpoint' lookup => sound.added other endpoint' (before lookup)
    ready := fun other endpoint' lookup => sound.ready other endpoint' (before lookup)
    kept := by
      intro other line present
      rw [same other present]
      exact sound.kept other line present
    marked := fun other endpoint' lookup => sound.marked other endpoint' (before lookup)
    referred := fun other endpoint' lookup => sound.referred other endpoint' (before lookup)
    queued := by
      intro other member
      rw [RbTree.find_erase, if_neg]
      · exact sound.queued other member
      · rintro rfl
        exact List.count_eq_zero.mp no_items member
    counted := by
      intro stream tstream lookup
      have counts := RbTree.count_erase tport.endpoints (fun _ endpoint => endpoint.waits stream) id
      rw [found, Option.elim_some, no_wait stream, Bool.toNat_false, Nat.add_zero] at counts
      rw [sound.counted stream tstream lookup, waiting, waiting, counts]
    events := by
      intro thread event member
      obtain ⟨endpoint', stream, tstream, due⟩ := sound.events thread event member
      exact ⟨endpoint', stream, tstream, due.of_same ((same event.id due.here).trans due.known)
        due.found rfl due.here (fun _ => ⟨rfl, rfl⟩)⟩
    ordered := by
      intro thread
      apply apart_congr (sound.ordered thread)
      intro event member
      obtain ⟨_, _, _, due⟩ := sound.events thread event member
      exact congrArg (·.bind (·.mTportStream)) (same event.id due.here) }

/-- Nobody who is not gone has a stream without references. -/
theorem Sound.unreferred {tport : Tport H S} (sound : Sound tport) {stream : StreamId}
    {tstream : TportStream S} (found : tport.streams.find stream = some tstream)
    (unused : tstream.mRefCount = 0) (id : EndpointId) (endpoint : Endpoint)
    (known : tport.endpoints.find id = some endpoint) (present : ¬ tport.Gone id) :
    endpoint.mTportStream ≠ some stream := by
  intro given
  have total := sound.counted stream tstream found
  rw [unused] at total
  cases node : endpoint.mTportTopic with
  | none =>
      have counts := RbTree.count_erase tport.endpoints (fun _ endpoint => endpoint.waits stream) id
      have waits : endpoint.waits stream = true := by simp [Endpoint.waits, given, node]
      rw [known, Option.elim_some, waits, Bool.toNat_true] at counts
      rw [waiting] at total
      omega
  | some address =>
      have empty : tstream.mTopics = [] := List.length_eq_zero_iff.mp (by omega)
      obtain ⟨ttopic, inside, _⟩ := (sound.listed stream tstream found address _ _ id).mpr
        ⟨endpoint, known, present, given, node, rfl, rfl⟩
      rw [empty] at inside
      cases inside

/-- A stream without references has neither nodes nor anybody who waits for it. -/
theorem Sound.freeStream {tport : Tport H S} (sound : Sound tport) {stream : StreamId}
    {tstream : TportStream S} (found : tport.streams.find stream = some tstream)
    (unused : tstream.mRefCount = 0) :
    Sound { tport with streams := tport.streams.erase stream } := by
  have nobody := sound.unreferred found unused
  have before : ∀ {other tstream'}, (tport.streams.erase stream).find other = some tstream' →
      tport.streams.find other = some tstream' := fun lookup => (RbTree.find_erase_some lookup).2
  exact { sound with
    freshStreams := fun other tstream' lookup => sound.freshStreams other tstream' (before lookup)
    nodes := fun other tstream' lookup => sound.nodes other tstream' (before lookup)
    occupied := fun other tstream' lookup => sound.occupied other tstream' (before lookup)
    listed := fun other tstream' lookup => sound.listed other tstream' (before lookup)
    given := by
      intro id endpoint known present
      obtain ⟨at_stream, given, there⟩ := sound.given id endpoint known present
      refine ⟨at_stream, given, ?_⟩
      rw [RbTree.find_erase, if_neg]
      · exact there
      · rintro rfl
        exact nobody id endpoint known present given
    counted := fun other tstream' lookup => sound.counted other tstream' (before lookup)
    events := by
      intro thread event member
      obtain ⟨endpoint, at_stream, tstream', due⟩ := sound.events thread event member
      have differs : at_stream ≠ stream := fun same =>
        nobody event.id endpoint due.known due.here (same ▸ due.given)
      have there : (tport.streams.erase stream).find at_stream = some tstream' := by
        rw [RbTree.find_erase, if_neg differs]
        exact due.found
      exact ⟨endpoint, at_stream, tstream', due.of_same due.known there rfl due.here
        (fun _ => ⟨rfl, rfl⟩)⟩ }

/-- Dropping a reference that the count has, and freeing the endpoint with the last. -/
theorem Sound.release {tport : Tport H S} {id : EndpointId} {endpoint : Endpoint}
    (found : tport.endpoints.find id = some endpoint)
    (sound : Sound { tport with
      endpoints := tport.endpoints.set id { endpoint with mRefCount := endpoint.mRefCount - 1 } })
    (away : endpoint.mRefCount - 1 = 0 → tport.Gone id) :
    ∃ next, tport.release id = .ok next ∧ Sound next := by
  simp only [Tport.release, Heap.read_some found, bind, Except.bind]
  split
  · rename_i last
    have freed := sound.freeEndpoint (RbTree.find_set_self _ _ _) (away last) last
    rw [RbTree.erase_set] at freed
    exact ⟨_, rfl, freed⟩
  · exact ⟨_, rfl, sound⟩

/-- The removal of an endpoint may not strand the endpoints of the other kind. -/
def TidyAt (topics : List TportTopic) (type : TopicType) (id : EndpointId) : Prop :=
  ∀ ttopic ∈ topics, ttopic.attached type = [id] → ∀ other, other ≠ type → ttopic.attached other = []

section Remove

variable {tport : Tport H S} (sound : Sound tport) {type : TopicType} {id : EndpointId}
  {endpoint : Endpoint} {stream : StreamId} {tstream : TportStream S}
  (found : tport.endpoints.find id = some endpoint) (here : ¬ tport.Gone id)
  (given : endpoint.mTportStream = some stream)
  (lookup : tport.streams.find stream = some tstream)
  (of_type : endpoint.mTopic.mType = type) (destroyed : endpoint.mDestroyed = true)
  (only : ∀ thread, ∀ event ∈ tport.queues thread, event.id ≠ id)
  (config : TportConfig H S)

theorem detach_eq (tport : Tport H S) (type : TopicType) (id : EndpointId) (endpoint : Endpoint)
    (stream : StreamId) (tstream : TportStream S) (ttopic : TportTopic) :
    ∃ weights, tport.detach type id endpoint stream tstream ttopic =
      { tport.log (.removing id) with
        mWeights := weights
        streams := tport.streams.set stream
          { tstream with mTopics := Topics.update tstream.mTopics (ttopic.unlink id type) } } := by
  cases type <;> exact ⟨_, rfl⟩

include sound found here given lookup of_type destroyed only

section Leave

variable {ttopic : TportTopic} (member : ttopic ∈ tstream.mTopics)
  (node : endpoint.mTportTopic = some ttopic.address)
include member node

/-- Without its last endpoint the node goes, and the stream with it if that was the
last reference. -/
theorem Sound.leaveTopic_last (only_one : ttopic.attached type = [id])
    (tidy : TidyAt tstream.mTopics type id) :
    ∃ middle, (tport.detach type id endpoint stream tstream ttopic).removeTopic config stream
        ttopic.address = .ok middle ∧
      middle.endpoints = tport.endpoints ∧ middle.Gone id ∧
      Sound { middle with
        endpoints := tport.endpoints.set id
          { endpoint with mRefCount := endpoint.mRefCount - 1 } } := by
  have nodes := sound.nodes stream tstream lookup
  have alone : ∀ at_type other, other ∈ ttopic.attached at_type → at_type = type ∧ other = id := by
    intro at_type other inside
    by_cases same : at_type = type
    · subst same
      rw [only_one] at inside
      exact ⟨rfl, List.mem_singleton.mp inside⟩
    · rw [tidy ttopic member only_one at_type same] at inside
      cases inside
  have filtered : (Topics.update tstream.mTopics (ttopic.unlink id type)).filter
      (·.address ≠ ttopic.address) = tstream.mTopics.filter (·.address ≠ ttopic.address) := by
    simpa using filter_update tstream.mTopics (ttopic.unlink id type)
  have shorter := length_filter nodes.addresses member
  have total := sound.counted stream tstream lookup
  -- The assertion holds: a count of zero is a count of no nodes.
  have fits : ¬ (tstream.mRefCount - 1 = 0 ∧
      tstream.mTopics.filter (·.address ≠ ttopic.address) ≠ []) := by
    rintro ⟨zero, more⟩
    have := List.length_pos_of_ne_nil more
    omega
  have counted : tstream.mRefCount - 1 -
      (tstream.mTopics.filter (·.address ≠ ttopic.address)).length =
        tstream.mRefCount - tstream.mTopics.length := by omega
  have sound' := sound.detach found here given lookup member node of_type destroyed only
    (nodes.filter (fun other => other.address ≠ ttopic.address))
    (fun other inside => sound.occupied stream tstream lookup other (List.mem_filter.mp inside).1)
    (fun other inside =>
      (sound.freshStreams stream tstream lookup).2 other (List.mem_filter.mp inside).1)
    counted (onNode_filter nodes member id type alone)
  obtain ⟨weights, state⟩ := tport.detach_eq type id endpoint stream tstream ttopic
  simp only [state, Tport.removeTopic, Heap.read_some (RbTree.find_set_self _ _ _), bind,
    Except.bind, TportStream.removeTopic, filtered, if_neg fits, RbTree.set_set, decide_eq_true_eq,
    and_self]
  split
  · rename_i zero
    simp only [Tport.removeStream, Heap.read_some (RbTree.find_set_self _ _ _), bind, Except.bind,
      RbTree.erase_set]
    have freed := sound'.freeStream (RbTree.find_set_self _ _ _) zero
    refine ⟨_, rfl, rfl, by simp [Gone, log, deleteEvents], ?_⟩
    refine freed.of_same (RbTree.erase_set _ _ _).symm rfl rfl rfl ?_ ?_ ?_
    · simp [Added, log, deleteEvents, detached]
    · simp [Gone, log, deleteEvents, detached]
    · intro thread
      dsimp only [log, deleteEvents, detached]
      split
      · rename_i same
        rw [same]
        exact List.filter_sublist
      · exact List.Sublist.refl _
  · refine ⟨_, rfl, rfl, by simp [Gone, log], ?_⟩
    exact sound'.of_same rfl rfl rfl rfl (fun _ => Iff.rfl) (fun _ => Iff.rfl)
      (fun _ => List.Sublist.refl _)

/-- With another endpoint of the kind the node stays. -/
theorem Sound.leaveTopic_stays (stays : (ttopic.attached type).erase id ≠ []) :
    (tport.detach type id endpoint stream tstream ttopic).endpoints = tport.endpoints ∧
      (tport.detach type id endpoint stream tstream ttopic).Gone id ∧
      Sound { tport.detach type id endpoint stream tstream ttopic with
        endpoints := tport.endpoints.set id
          { endpoint with mRefCount := endpoint.mRefCount - 1 } } := by
  have nodes := sound.nodes stream tstream lookup
  have left : (ttopic.unlink id type).attached type = (ttopic.attached type).erase id := by
    rw [TportTopic.attached_unlink, if_pos rfl]
  have occupied : ∀ other ∈ Topics.update tstream.mTopics (ttopic.unlink id type),
      other.Occupied := by
    intro other inside
    rcases (mem_update member (by simp) other).mp inside with ⟨before, _⟩ | rfl
    · exact sound.occupied stream tstream lookup other before
    · exact ⟨type, by rw [left]; exact stays⟩
  have small : ∀ other ∈ Topics.update tstream.mTopics (ttopic.unlink id type),
      other.address < tport.fresh := by
    intro other inside
    have before := (sound.freshStreams stream tstream lookup).2
    rcases (mem_update member (by simp) other).mp inside with ⟨old, _⟩ | rfl
    · exact before other old
    · rw [TportTopic.unlink_address]
      exact before ttopic member
  have counted : tstream.mRefCount - (Topics.update tstream.mTopics (ttopic.unlink id type)).length =
      tstream.mRefCount - tstream.mTopics.length := by rw [length_update]
  have sound' := sound.detach found here given lookup member node of_type destroyed only
    (nodes.update member (by simp) (by simp) ((nodes.linked ttopic member).unlink id type)) occupied
    small counted (onNode_unlink nodes member id type)
  obtain ⟨weights, state⟩ := tport.detach_eq type id endpoint stream tstream ttopic
  rw [state]
  refine ⟨rfl, by simp [Gone, log], ?_⟩
  exact sound'.of_same rfl rfl rfl rfl (fun _ => Iff.rfl) (fun _ => Iff.rfl)
    (fun _ => List.Sublist.refl _)

/-- Whether the node stays or goes, and the stream with it, the endpoint has left. -/
theorem Sound.leaveTopic (on : id ∈ ttopic.attached type) (tidy : TidyAt tstream.mTopics type id) :
    ∃ middle, (tport.detach type id endpoint stream tstream ttopic).leaveTopic config stream
        ttopic.address ((ttopic.unlink id type).attached type) = .ok middle ∧
      middle.endpoints = tport.endpoints ∧ middle.Gone id ∧
      Sound { middle with
        endpoints := tport.endpoints.set id
          { endpoint with mRefCount := endpoint.mRefCount - 1 } } := by
  rw [Tport.leaveTopic, TportTopic.attached_unlink, if_pos rfl]
  split
  · rename_i last
    exact sound.leaveTopic_last found here given lookup of_type destroyed only config member node
      (only_of_erase on last) tidy
  · rename_i stays
    exact ⟨_, rfl, sound.leaveTopic_stays found here given lookup of_type destroyed only member node
      stays⟩

end Leave

/-- The removal of an endpoint runs through. -/
theorem Sound.remove (attached : endpoint.mTportTopic ≠ none)
    (tidy : TidyAt tstream.mTopics type id) :
    ∃ next, tport.remove config type id endpoint = .ok next ∧ Sound next := by
  obtain ⟨address, node⟩ := Option.ne_none_iff_exists'.mp attached
  obtain ⟨ttopic, member, rfl, named, on⟩ :=
    (sound.listed stream tstream lookup address endpoint.mTopic.mTopic type id).mpr
      ⟨endpoint, found, here, given, node, of_type, rfl⟩
  have at_address := tstream.topicAt_of_mem (sound.nodes stream tstream lookup).addresses member
  obtain ⟨middle, left, same, away, sound'⟩ := sound.leaveTopic found here given lookup of_type
    destroyed only config member node on tidy
  have found' : middle.endpoints.find id = some endpoint := by
    rw [same]
    exact found
  obtain ⟨next, released, sound''⟩ := Sound.release found' (by rw [same]; exact sound')
    (fun _ => away)
  refine ⟨next, ?_, sound''⟩
  simp only [Tport.remove, given, notNull, node, Heap.read_some lookup, at_address, on,
    not_true_eq_false, ↓reduceIte, left, bind, Except.bind, released]

end Remove

end Sbf.Tport
