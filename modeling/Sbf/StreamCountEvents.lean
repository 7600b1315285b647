import Sbf.StreamCountEntries

set_option autoImplicit false

namespace Sbf.StreamCounts

open Octets Topics

/-- An event step that changes one endpoint and its stream, and the steps that are left for
this endpoint. -/
structure Moves (before after : StreamCounts) (id : EndpointId)
    (endpoint endpoint' : CountedEndpoint) (stream : StreamId)
    (tstream tstream' : TportStream TopicType) : Prop where
  found : before.endpoints.find id = some endpoint
  given : endpoint.mTportStream = some stream
  lookup : before.streams.find stream = some tstream
  endpoints : after.endpoints = before.endpoints.set id endpoint'
  streams : after.streams = before.streams.set stream tstream'
  setting : after.setting = before.setting
  completing : after.completing = before.completing
  fresh : before.fresh ≤ after.fresh
  mType : endpoint'.mType = endpoint.mType
  mTportStream : endpoint'.mTportStream = endpoint.mTportStream
  mDestroyed : endpoint'.mDestroyed = endpoint.mDestroyed
  node : endpoint.mTportTopic.isSome = true → endpoint'.mTportTopic.isSome = true
  present : endpoint'.added = false ∨ endpoint'.gone = false →
    endpoint.added = false ∨ endpoint.gone = false
  mThread : tstream'.mThread = tstream.mThread
  mStream : tstream'.mStream = tstream.mStream
  mReady : tstream'.mReady = tstream.mReady
  counted : tstream'.mRefCount - tstream'.mTopics.length - (endpoint'.waits stream).toNat =
    tstream.mRefCount - tstream.mTopics.length - (endpoint.waits stream).toNat
  others : ∀ p : ThreadStep → Bool,
    (∀ step, step.endpoint = some id ∨ (∃ freed, step = .removeStream freed) → p step = false) →
      after.pending p = before.pending p
  joins : after.joins id ≤ before.joins id
  completes : ∀ other, after.pending (·.completes other) = before.pending (·.completes other)

section Moves

variable {before after : StreamCounts} {id : EndpointId} {endpoint endpoint' : CountedEndpoint}
  {stream : StreamId} {tstream tstream' : TportStream TopicType}
  (moves : Moves before after id endpoint endpoint' stream tstream tstream')
include moves

theorem Moves.later : Later before after where
  endpoints other endpoint'' old := by
    rw [moves.endpoints]
    by_cases own : other = id
    · subst own
      rw [moves.found] at old
      cases old
      exact ⟨endpoint', RbTree.find_set_self _ _ _, fun _ given => moves.mTportStream.trans given,
        moves.node⟩
    · exact ⟨endpoint'', (RbTree.find_set _ _ _ _).trans ((if_neg own).trans old),
        fun _ given => given, fun on => on⟩
  streams other _ tstream'' found := by
    rw [moves.streams] at found
    rcases RbTree.find_set_some found with ⟨rfl, rfl⟩ | ⟨_, old⟩
    · exact ⟨tstream, moves.lookup, moves.mThread, fun ready => moves.mReady.trans ready⟩
    · exact ⟨tstream'', old, rfl, fun ready => ready⟩
  setting other at_stream storing := .inl (moves.setting.trans storing)

theorem Moves.live {other : StreamId} {kind kind' : CountedEndpoint}
    (same : kind'.mType = kind.mType) (live : before.Live other kind) : after.Live other kind' :=
  live.set moves.lookup moves.streams moves.mStream same

theorem Moves.joins_le (other : EndpointId) : after.joins other ≤ before.joins other := by
  by_cases own : other = id
  · rw [own]
    exact moves.joins
  · rw [StreamCounts.joins, StreamCounts.joins, moves.completing, moves.others]
    rintro step (concerns | ⟨freed, rfl⟩)
    · cases step <;> simp_all [ThreadStep.joins, ThreadStep.endpoint, Ne.symm own]
    · rfl

theorem Moves.due (sound : Sound before) {other : EndpointId} (apart : other ≠ id)
    {endpoint'' : CountedEndpoint} (old : before.endpoints.find other = some endpoint'') :
    Due endpoint'' (after.joins other) (after.pending (· = .unhold other))
      (after.pending (· = .remove other)) (after.pending (·.settles other)) := by
  have due := sound.due other endpoint'' old
  rw [moves.others (· = .unhold other), moves.others (· = .remove other),
    moves.others (·.settles other)]
  · exact due.fewer (moves.joins_le other) le_rfl
  · rintro step (concerns | ⟨freed, rfl⟩)
    · cases step <;> simp_all [ThreadStep.settles, ThreadStep.endpoint, Ne.symm apart]
    · rfl
  · rintro step (concerns | ⟨freed, rfl⟩)
    · cases step <;> simp_all [ThreadStep.endpoint, Ne.symm apart]
    · rfl
  · rintro step (concerns | ⟨freed, rfl⟩)
    · cases step <;> simp_all [ThreadStep.endpoint, Ne.symm apart]
    · rfl

theorem Moves.counts (sound : Sound before) (other : StreamId) (tstream'' : TportStream TopicType)
    (lookup : after.streams.find other = some tstream'') :
    tstream''.mRefCount + after.owing other = tstream''.mTopics.length + after.waiting other := by
  have counts := waiting_set moves.found endpoint' other
  rw [← moves.endpoints] at counts
  have owing : after.owing other = before.owing other := by
    rw [StreamCounts.owing, moves.setting]
    rfl
  rw [owing, waiting]
  rw [moves.streams] at lookup
  rcases RbTree.find_set_some lookup with ⟨rfl, rfl⟩ | ⟨apart, old⟩
  · have total := sound.counted other tstream moves.lookup
    have moved := moves.counted
    omega
  · have total := sound.counted other tstream'' old
    have same : endpoint'.waits other = endpoint.waits other := by
      simp [CountedEndpoint.waits, moves.mTportStream, moves.given, Ne.symm apart]
    rw [same] at counts
    omega

theorem Moves.sound (sound : Sound before)
    (small : ∀ ttopic ∈ tstream'.mTopics, ttopic.address < after.fresh)
    (nodes : Nodes tstream'.mTopics)
    (listed : ∀ address name type other, OnNode tstream'.mTopics address name type other ↔
      ∃ endpoint'', after.endpoints.find other = some endpoint'' ∧ endpoint''.gone = false ∧
        endpoint''.mTportStream = some stream ∧ endpoint''.mTportTopic = some address ∧
        endpoint''.mType = type ∧ endpoint''.mTopic = name)
    (due : Due endpoint' (after.joins id) (after.pending (· = .unhold id))
      (after.pending (· = .remove id)) (after.pending (·.settles id)))
    (entries : ∀ entry ∈ after.work, entry ∈ before.work ∨ after.Owed entry.1 entry.2) :
    Sound after where
  freshStreams := by
    rw [moves.streams]
    apply RbTree.forall_set
    · exact ⟨(sound.freshStreams stream tstream moves.lookup).1.trans_le moves.fresh, small⟩
    · intro other tstream'' _ old
      have small := sound.freshStreams other tstream'' old
      exact ⟨small.1.trans_le moves.fresh, fun ttopic inside => (small.2 _ inside).trans_le moves.fresh⟩
  freshEndpoints := by
    have grows : ∀ other endpoint'', before.endpoints.find other = some endpoint'' →
        other < after.fresh ∧
          ∀ at_stream, endpoint''.mTportStream = some at_stream → at_stream < after.fresh := by
      intro other endpoint'' old
      have small := sound.freshEndpoints other endpoint'' old
      exact ⟨small.1.trans_le moves.fresh, fun _ same => (small.2 _ same).trans_le moves.fresh⟩
    rw [moves.endpoints]
    apply RbTree.forall_set
    · rw [moves.mTportStream]
      exact grows id endpoint moves.found
    · exact fun other endpoint'' _ => grows other endpoint''
  nodes := by
    rw [moves.streams]
    exact RbTree.forall_set nodes (fun other tstream'' _ => sound.nodes other tstream'')
  listed other tstream'' lookup address name type at_id := by
    rw [moves.streams] at lookup
    rcases RbTree.find_set_some lookup with ⟨rfl, rfl⟩ | ⟨apart, old⟩
    · exact listed address name type at_id
    · rw [sound.listed other tstream'' old, moves.endpoints]
      by_cases own : at_id = id
      · subst own
        simp only [RbTree.find_set_self, moves.found, Option.some.injEq, exists_eq_left',
          moves.mTportStream, moves.given, Ne.symm apart, false_and, and_false]
      · simp only [RbTree.find_set, if_neg own]
  given other endpoint'' at_stream found given present := by
    rw [moves.endpoints] at found
    rcases RbTree.find_set_some found with ⟨rfl, rfl⟩ | ⟨_, old⟩
    · exact moves.live moves.mType (sound.given other endpoint at_stream moves.found
        (moves.mTportStream.symm.trans given) (moves.present present))
    · exact moves.live rfl (sound.given other endpoint'' at_stream old given present)
  streamless := by
    rw [moves.endpoints, moves.setting]
    apply RbTree.forall_set
    · intro streamless
      rw [moves.mTportStream, moves.given] at streamless
      cases streamless
    · exact fun other endpoint'' _ => sound.streamless other endpoint''
  counted := moves.counts sound
  due := by
    rw [moves.endpoints]
    exact RbTree.forall_set due (fun other endpoint'' apart old => moves.due sound apart old)
  completes := by
    rw [moves.streams, moves.completing]
    simp only [moves.completes]
    apply RbTree.forall_set
    · rw [moves.mReady]
      exact sound.completes stream tstream moves.lookup
    · exact fun other tstream'' _ => sound.completes other tstream''
  creators at_stream other member := by
    rw [moves.completing] at member
    obtain ⟨thread, serves⟩ := sound.creators at_stream other member
    exact ⟨thread, Serves.lasts moves.later sound serves⟩
  entries entry member := by
    rcases entries entry member with old | owed
    · refine Owed.lasts moves.later sound (sound.entries entry old) ?_
      intro freed freeing
      rw [moves.streams]
      exact RbTree.isSome_set (sound.frees old freeing) _ _
    · exact owed
  phase setting held := by
    rw [moves.setting] at held
    obtain ⟨holder, at_holder, returned, phase⟩ := sound.phase setting held
    have none_left : ∀ other, before.joins other = 0 → after.joins other = 0 := by
      intro other zero
      exact Nat.eq_zero_of_le_zero (zero ▸ moves.joins_le other)
    rw [moves.endpoints]
    by_cases own : setting.endpoint = id
    · rw [own, moves.found] at at_holder
      cases at_holder
      rw [own]
      exact ⟨endpoint', RbTree.find_set_self _ _ _, moves.mDestroyed.trans returned,
        phase.congr moves.mTportStream none_left (fun _ => moves.live moves.mType)⟩
    · exact ⟨holder, (RbTree.find_set _ _ _ _).trans ((if_neg own).trans at_holder), returned,
        phase.congr rfl none_left (fun _ => moves.live rfl)⟩

end Moves

/-- A thread has taken a step off what it has to do, and is about to make it. -/
structure Starts (state : StreamCounts) (thread : Nat) (step : ThreadStep) : Prop where
  sound : Sound { state with work := (thread, step) :: state.work }
  leads : Leads state.work
  alone : ∀ entry ∈ state.work, entry.1 = thread → ∀ stream, entry.2 ≠ .removeStream stream

/-- What a thread puts before the rest of its steps is next. -/
theorem Starts.leads_cons {state : StreamCounts} {thread : Nat} {step : ThreadStep}
    (starts : Starts state thread step) (first : ThreadStep) :
    Leads ((thread, first) :: state.work) :=
  List.pairwise_cons.mpr
    ⟨fun entry member same => starts.alone entry member same.symm, starts.leads⟩

section Joining

variable {state : StreamCounts} {thread : Nat} {step : ThreadStep} {id : EndpointId}
  {stream : StreamId}

/-- An endpoint has its stream when its add callback starts, or its completion. -/
theorem Starts.given (starts : Starts state thread step)
    (serves : Serves { state with work := (thread, step) :: state.work } thread id stream)
    (joining : step.joins id = true)
    (free : ¬ (state.setting ≠ none ∧ (state.endpoints.find id).bind (·.mTportStream) = none)) :
    ∃ endpoint tstream, state.endpoints.find id = some endpoint ∧
      endpoint.mTportStream = some stream ∧ endpoint.mTportTopic = none ∧ endpoint.added = false ∧
      endpoint.gone = false ∧ state.streams.find stream = some tstream ∧
      tstream.mStream = endpoint.mType := by
  have waits : 0 < StreamCounts.joins { state with work := (thread, step) :: state.work } id := by
    rw [joins_cons, joining]
    exact Nat.succ_pos _
  obtain ⟨endpoint, found, off, unadded, here, tstream, lookup, kind⟩ :=
    starts.sound.serves_live serves waits
  have found : state.endpoints.find id = some endpoint := found
  obtain ⟨⟨endpoint', found', given | storing⟩, _⟩ := serves
  · have found' : state.endpoints.find id = some endpoint' := found'
    rw [found] at found'
    cases found'
    exact ⟨endpoint, tstream, found, given, off, unadded, here, lookup, kind⟩
  · obtain ⟨holder, at_holder, _, none_given, _⟩ := starts.sound.phase _ storing
    have at_holder : state.endpoints.find id = some holder := at_holder
    have storing : state.setting = some (.store id stream) := storing
    exact absurd ⟨by rw [storing]; exact Option.some_ne_none _,
      by rw [at_holder, Option.bind_some, none_given]⟩ free

end Joining

/-- The endpoint is on a node, which has a reference; its own is still there. -/
theorem Starts.attach {state : StreamCounts} {thread : Nat} {id : EndpointId}
    (starts : Starts state thread (.add id)) (free : ¬ state.Blocked (.add id)) :
    ∃ next, state.attach thread id = .ok next ∧ Steady next := by
  have sound := starts.sound
  obtain ⟨stream, serves⟩ := sound.entries _ (.head _)
  obtain ⟨endpoint, tstream, found, given, off, unadded, here, lookup, kind⟩ :=
    starts.given serves (decide_eq_true rfl) free
  have made := tstream.ensureTopic_ensures (sound.nodes stream tstream lookup) state.fresh
    (sound.freshStreams stream tstream lookup).2 endpoint.mTopic
  have made_kind := tstream.ensureTopic_kind state.fresh endpoint.mTopic
  simp only [StreamCounts.attach, Heap.read_some found, given, notNull, Heap.read_some lookup, bind,
    Except.bind]
  generalize tstream.ensureTopic state.fresh endpoint.mTopic = ensured at made made_kind
  obtain ⟨ttopic, ensured⟩ := ensured
  simp only at made made_kind
  refine ⟨_, rfl, ?_, starts.leads_cons (.unhold id)⟩
  have unlisted : ∀ address name type, ¬ OnNode tstream.mTopics address name type id := by
    intro address name type on
    obtain ⟨other, same, _, _, node, _⟩ := (sound.listed stream tstream lookup _ _ _ _).mp on
    rw [found] at same
    cases same
    rw [off] at node
    cases node
  have due := sound.due id endpoint found
  have moves : Moves { state with work := (thread, .add id) :: state.work } { state with
      streams := state.streams.set stream
        { ensured with
          mTopics := Topics.update ensured.mTopics (ttopic.insertTail id endpoint.mType) }
      endpoints := state.endpoints.set id
        { endpoint with mTportStream := some stream, mTportTopic := some ttopic.address }
      fresh := state.fresh + 1
      work := (thread, .unhold id) :: state.work } id endpoint
      { endpoint with mTportStream := some stream, mTportTopic := some ttopic.address } stream
      tstream { ensured with
        mTopics := Topics.update ensured.mTopics (ttopic.insertTail id endpoint.mType) } := by
    refine ⟨found, given, lookup, rfl, rfl, rfl, rfl, Nat.le_succ _, rfl, given.symm, rfl,
      fun _ => rfl, fun _ => .inl unadded, made.thread, made_kind, made.ready, ?_, ?_, ?_, ?_⟩
    · have counted := made.counted
      simp only [CountedEndpoint.waits, given, length_update] at counted ⊢
      omega
    · intro p none_own
      simp [pending, none_own (.add id) (.inl rfl), none_own (.unhold id) (.inl rfl)]
    · simp [StreamCounts.joins, pending, ThreadStep.joins]
    · intro other
      simp [pending, ThreadStep.completes]
  have new : id ∉ ttopic.attached endpoint.mType := fun member =>
    unlisted _ _ _ ((made.onNode _ _ _ _).mp ⟨ttopic, made.member, rfl, rfl, member⟩)
  refine moves.sound sound ?_ ?_ ?_ ?_ ?_
  · intro node inside
    rcases (mem_update made.member (by simp) node).mp inside with ⟨old, _⟩ | rfl
    · exact made.fresh node old
    · rw [TportTopic.insertTail_address]
      exact made.fresh ttopic made.member
  · exact made.nodes.update made.member (by simp) (by simp)
      ((made.nodes.linked ttopic made.member).insertTail new)
  · intro address name type other
    rw [onNode_insertTail made.nodes made.member, made.onNode, made.named,
      sound.listed stream tstream lookup]
    by_cases same : other = id
    · subst same
      simp only [RbTree.find_set_self, Option.some.injEq, exists_eq_left', found, off,
        reduceCtorEq, false_and, and_false, false_or, and_true, true_and]
      constructor
      · rintro ⟨rfl, rfl, rfl⟩
        exact ⟨here, rfl, rfl, rfl⟩
      · rintro ⟨_, rfl, rfl, rfl⟩
        exact ⟨rfl, rfl, rfl⟩
    · simp only [RbTree.find_set, same, ↓reduceIte, and_false, or_false]
  · have joins := due.joins
    have unholds := due.unholds
    simp only [StreamCounts.joins, pending, List.countP_cons, ThreadStep.joins, off, decide_true,
      if_true, Option.toList_none, List.length_nil] at joins
    simp only [pending, List.countP_cons, off, reduceCtorEq, decide_false, Bool.false_eq_true,
      if_false, Option.isSome_none, Bool.false_and, Bool.toNat_false, Nat.add_zero] at unholds
    refine { due with joins := ?_, unholds := ?_, added := fun _ => rfl, ready := fun _ => rfl,
                      gone := fun away => ?_ }
    · simp only [StreamCounts.joins, pending, List.countP_cons, ThreadStep.joins,
        Bool.false_eq_true, if_false, Option.toList_some, List.length_singleton]
      omega
    · simp only [pending, List.countP_cons, decide_true, if_true, unholds, unadded]
      rfl
    · rw [here] at away
      cases away
  · intro entry member
    rcases List.mem_cons.mp member with rfl | old
    · obtain ⟨at_stream, serves⟩ := sound.entries _ (.head _)
      exact .inr ⟨at_stream, Serves.lasts moves.later sound serves⟩
    · exact .inl (.tail _ old)

/-- The endpoint's own reference is dropped: it has a node, and the node has one. -/
theorem Starts.unhold {state : StreamCounts} {thread : Nat} {id : EndpointId}
    (starts : Starts state thread (.unhold id)) :
    ∃ next, state.unhold id = .ok next ∧ Steady next := by
  have sound := starts.sound
  obtain ⟨_, ⟨endpoint, found, _⟩, _⟩ := sound.entries _ (.head _)
  have found : state.endpoints.find id = some endpoint := found
  have due := sound.due id endpoint found
  have unholds := due.unholds
  simp only [pending, List.countP_cons, decide_true, if_true] at unholds
  obtain ⟨on, unadded⟩ : endpoint.mTportTopic.isSome = true ∧ endpoint.added = false := by
    cases on : endpoint.mTportTopic.isSome <;> cases added : endpoint.added <;> simp_all
  have none_left : state.work.countP (fun entry => entry.2 = .unhold id) = 0 := by
    rw [on, unadded] at unholds
    simpa using unholds
  cases given : endpoint.mTportStream with
  | none =>
      rw [(sound.streamless id endpoint found given).1] at on
      cases on
  | some stream =>
      obtain ⟨tstream, lookup, _⟩ := sound.given id endpoint stream found given (.inl unadded)
      have lookup : state.streams.find stream = some tstream := lookup
      simp only [StreamCounts.unhold, Heap.read_some found, given, notNull, Heap.read_some lookup,
        bind, Except.bind]
      refine ⟨_, rfl, ?_, starts.leads⟩
      have moves : Moves { state with work := (thread, .unhold id) :: state.work } { state with
          streams := state.streams.set stream { tstream with mRefCount := tstream.mRefCount - 1 }
          endpoints := state.endpoints.set id
            { endpoint with
              mReady := endpoint.mReady || tstream.mReady
              mTportStream := some stream
              added := true } } id endpoint
          { endpoint with
            mReady := endpoint.mReady || tstream.mReady
            mTportStream := some stream
            added := true } stream tstream { tstream with mRefCount := tstream.mRefCount - 1 } := by
        refine ⟨found, given, lookup, rfl, rfl, rfl, rfl, le_rfl, rfl, given.symm, rfl,
          fun on => on, ?_, rfl, rfl, rfl, ?_, ?_, ?_, ?_⟩
        · rintro (unadded | here)
          · cases unadded
          · exact .inr here
        · simp only [CountedEndpoint.waits, given, unadded, decide_true, Bool.not_true,
            Bool.not_false, Bool.and_false, Bool.and_true, Bool.toNat_false, Bool.toNat_true]
          omega
        · intro p none_own
          simp [pending, none_own (.unhold id) (.inl rfl)]
        · simp [StreamCounts.joins, pending, ThreadStep.joins]
        · intro other
          simp [pending, ThreadStep.completes]
      refine moves.sound sound (sound.freshStreams stream tstream lookup).2
        (sound.nodes stream tstream lookup) ?_ ?_ (fun entry member => .inl (.tail _ member))
      · intro address name type other
        rw [sound.listed stream tstream lookup]
        by_cases own : other = id
        · subst own
          simp only [RbTree.find_set_self, found, Option.some.injEq, exists_eq_left', given]
        · simp only [RbTree.find_set, own, ↓reduceIte]
      · have joins := moves.joins
        have few := due.joins
        refine { due with joins := ?_, unholds := ?_, added := fun _ => on, ready := fun _ => on,
                          gone := fun away => ?_ }
        · exact (Nat.add_le_add_right joins _).trans few
        · simp only [pending, none_left, Bool.not_true, Bool.and_false, Bool.toNat_false]
        · exact due.gone away

/-- A removal is carried out, of an endpoint that is on a node. -/
structure Leaves (state : StreamCounts) (thread : Nat) (step : ThreadStep) (id : EndpointId)
    (endpoint : CountedEndpoint) (stream : StreamId) (tstream : TportStream TopicType)
    (ttopic : TportTopic) : Prop where
  starts : Starts state thread step
  removing : step = .remove id ∨ step = .settle id ∨ step = .finish id
  found : state.endpoints.find id = some endpoint
  given : endpoint.mTportStream = some stream
  lookup : state.streams.find stream = some tstream
  at_thread : tstream.mThread = thread
  kind : tstream.mStream = endpoint.mType
  here : endpoint.gone = false
  destroyed : endpoint.mDestroyed = true
  member : ttopic ∈ tstream.mTopics
  node : endpoint.mTportTopic = some ttopic.address
  on : id ∈ ttopic.attached endpoint.mType
  removes : state.pending (· = .remove id) = 0
  settles : endpoint.mRemoved = true → state.pending (·.settles id) = 0

section Leaves

variable {state : StreamCounts} {thread : Nat} {step : ThreadStep} {id : EndpointId}
  {endpoint : CountedEndpoint} {stream : StreamId} {tstream : TportStream TopicType}
  {ttopic : TportTopic} (leaves : Leaves state thread step id endpoint stream tstream ttopic)
include leaves

/-- What a removal makes of the state, given what has become of the stream's nodes. -/
theorem Leaves.sound (mTopics : List TportTopic) (mRefCount : Int)
    (work : List (Nat × ThreadStep))
    (left : work = state.work ∨ work = (thread, .removeStream stream) :: state.work)
    (counted : mRefCount - mTopics.length = tstream.mRefCount - tstream.mTopics.length)
    (small : ∀ other ∈ mTopics, other.address < state.fresh) (nodes : Nodes mTopics)
    (onNode : ∀ address name type other, OnNode mTopics address name type other ↔
      OnNode tstream.mTopics address name type other ∧
        ¬ (address = ttopic.address ∧ type = endpoint.mType ∧ other = id)) :
    Sound { state with
      streams := state.streams.set stream
        { tstream with mTopics := mTopics, mRefCount := mRefCount }
      endpoints := state.endpoints.set id { endpoint with gone := true }
      work := work } := by
  have sound := leaves.starts.sound
  have due := sound.due id endpoint leaves.found
  have on : endpoint.mTportTopic.isSome = true := by
    rw [leaves.node]
    rfl
  have own : step.endpoint = some id := by
    rcases leaves.removing with rfl | rfl | rfl <;> rfl
  have unjoined : ∀ other, step.joins other = false := by
    rcases leaves.removing with rfl | rfl | rfl <;> exact fun _ => rfl
  have incomplete : ∀ other, step.completes other = false := by
    rcases leaves.removing with rfl | rfl | rfl <;> exact fun _ => rfl
  have held : step ≠ .unhold id := by
    rcases leaves.removing with rfl | rfl | rfl <;> simp
  have counts : ∀ p, p (.removeStream stream) = false →
      work.countP (fun entry => p entry.2) = state.pending p := by
    intro p unrelated
    rcases left with rfl | rfl
    · rfl
    · simp [pending, unrelated]
  have rest : ∀ p : ThreadStep → Bool, p step = false →
      StreamCounts.pending { state with work := (thread, step) :: state.work } p =
        state.pending p := by
    intro p unrelated
    rw [pending_cons, unrelated]
    rfl
  have moves : Moves { state with work := (thread, step) :: state.work } { state with
      streams := state.streams.set stream
        { tstream with mTopics := mTopics, mRefCount := mRefCount }
      endpoints := state.endpoints.set id { endpoint with gone := true }
      work := work } id endpoint { endpoint with gone := true } stream tstream
      { tstream with mTopics := mTopics, mRefCount := mRefCount } := by
    refine ⟨leaves.found, leaves.given, leaves.lookup, rfl, rfl, rfl, rfl, le_rfl, rfl, rfl, rfl,
      fun on => on, fun _ => .inr leaves.here, rfl, rfl, rfl, ?_, ?_, ?_, ?_⟩
    · simp only [CountedEndpoint.waits]
      omega
    · intro p none_own
      exact (counts p (none_own _ (.inr ⟨_, rfl⟩))).trans (rest p (none_own _ (.inl own))).symm
    · rw [joins_cons, unjoined]
      exact Nat.add_le_add_right (counts (·.joins id) rfl).le _
    · intro other
      exact (counts _ rfl).trans (rest (·.completes other) (incomplete other)).symm
  refine moves.sound sound small nodes ?_ ?_ ?_
  · intro address name type other
    rw [onNode, sound.listed stream tstream leaves.lookup]
    by_cases same : other = id
    · subst same
      simp only [RbTree.find_set_self, Option.some.injEq, exists_eq_left', leaves.found, leaves.node,
        Bool.true_eq_false, false_and, iff_false, not_and, and_true]
      rintro ⟨_, _, rfl, rfl, _⟩ elsewhere
      exact elsewhere rfl rfl
    · simp only [RbTree.find_set, same, ↓reduceIte, and_false, not_false_eq_true, and_true]
  · refine { due with joins := ?_, unholds := ?_, settles := ?_, removes := fun still => absurd still (by simp),
                      gone := fun _ => ?_ }
    · exact (Nat.add_le_add_right moves.joins _).trans due.joins
    · have unholds := due.unholds
      rw [rest (· = .unhold id) (by simpa using held)] at unholds
      exact (counts (· = .unhold id) (by simp)).trans unholds
    · have few := due.settles
      rw [pending_cons] at few
      exact (counts (·.settles id) rfl).le.trans ((Nat.le_add_right _ _).trans few)
    · refine ⟨on, leaves.destroyed, (counts (· = .remove id) (by simp)).trans leaves.removes, ?_⟩
      intro removed
      exact (counts (·.settles id) rfl).trans (leaves.settles removed)
  · intro entry inside
    rcases left with rfl | rfl
    · exact .inl (.tail _ inside)
    · rcases List.mem_cons.mp inside with rfl | old
      · exact .inr ⟨_, RbTree.find_set_self _ _ _, leaves.at_thread⟩
      · exact .inl (.tail _ old)

end Leaves

end Sbf.StreamCounts
