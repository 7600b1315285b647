import Sbf.StreamCountRemovals

set_option autoImplicit false

/-! The counts over whole runs, in every interleaving of the threads. -/

namespace Sbf.StreamCounts

open Octets Topics

section Complete

variable {state : StreamCounts} {stream : StreamId} {tstream : TportStream TopicType}

/-- Nobody is on two nodes of a stream. -/
theorem Sound.attached_nodup (sound : Sound state)
    (lookup : state.streams.find stream = some tstream) (type : TopicType) :
    (tstream.mTopics.flatMap (·.attached type)).Nodup := by
  have nodes := sound.nodes stream tstream lookup
  refine List.nodup_flatMap.mpr ⟨fun ttopic member => (nodes.linked ttopic member).distinct type, ?_⟩
  refine (List.pairwise_map.mp nodes.addresses).imp_of_mem ?_
  intro first second inside inside' apart other on on'
  obtain ⟨endpoint, found, _, _, node, _⟩ :=
    (sound.listed stream tstream lookup first.address first.mTopic type other).mp
      ⟨first, inside, rfl, rfl, on⟩
  obtain ⟨endpoint', found', _, _, node', _⟩ :=
    (sound.listed stream tstream lookup second.address second.mTopic type other).mp
      ⟨second, inside', rfl, rfl, on'⟩
  rw [found] at found'
  cases found'
  exact apart (Option.some.inj (node.symm.trans node'))

theorem Sound.attached_mem (sound : Sound state)
    (lookup : state.streams.find stream = some tstream) {type : TopicType} {id : EndpointId}
    (on : id ∈ tstream.mTopics.flatMap (·.attached type)) : ∃ endpoint,
      state.endpoints.find id = some endpoint ∧ endpoint.gone = false ∧
        endpoint.mTportStream = some stream ∧ endpoint.mTportTopic.isSome = true := by
  obtain ⟨ttopic, member, inside⟩ := List.mem_flatMap.mp on
  obtain ⟨endpoint, found, here, given, node, _⟩ :=
    (sound.listed stream tstream lookup ttopic.address ttopic.mTopic type id).mp
      ⟨ttopic, member, rfl, rfl, inside⟩
  exact ⟨endpoint, found, here, given, by rw [node]; rfl⟩

/-- No completion has come to an endpoint of a stream that is not ready. -/
theorem Sound.unsettled (sound : Sound state)
    (lookup : state.streams.find stream = some tstream) (unready : tstream.mReady = false)
    {id : EndpointId} {endpoint : CountedEndpoint}
    (found : state.endpoints.find id = some endpoint)
    (given : endpoint.mTportStream = some stream) : state.pending (·.settles id) = 0 := by
  apply List.countP_eq_zero.mpr
  intro entry member settles
  have owed := sound.entries entry member
  have settling : ∃ endpoint', state.Settles entry.1 id endpoint' := by
    generalize entry.2 = step at owed settles
    cases step with
    | settle other =>
        obtain ⟨endpoint', settling, _⟩ := owed
        rw [of_decide_eq_true settles] at settling
        exact ⟨endpoint', settling⟩
    | finish other =>
        obtain ⟨endpoint', settling⟩ := owed
        rw [of_decide_eq_true settles] at settling
        exact ⟨endpoint', settling⟩
    | _ => cases settles
  obtain ⟨endpoint', settles⟩ := settling
  rw [(settles.on_stream found given lookup).2] at unready
  cases unready

end Complete

section Completed

variable {state : StreamCounts} {thread : Nat} {stream : StreamId} {id : EndpointId}
  {endpoint : CountedEndpoint} {tstream : TportStream TopicType}

/-- What a completion leaves to do: the endpoints that are attached, and the one that created
the stream. -/
def settling (thread : Nat) (id : EndpointId) (attached : List EndpointId)
    (work : List (Nat × ThreadStep)) : List (Nat × ThreadStep) :=
  attached.map (fun other => (thread, .settle other)) ++
    (thread, .add id) :: (thread, .finish id) :: work

theorem settling_count (attached : List EndpointId) (work : List (Nat × ThreadStep))
    (p : ThreadStep → Bool) : (settling thread id attached work).countP (fun entry => p entry.2) =
      attached.countP (fun other => p (.settle other)) + (p (.add id)).toNat +
        (p (.finish id)).toNat + work.countP (fun entry => p entry.2) := by
  rw [settling, List.countP_append, List.countP_map, List.countP_cons, List.countP_cons]
  simp only [Function.comp_def]
  cases p (.add id) <;> cases p (.finish id) <;>
    simp only [Bool.toNat_true, Bool.toNat_false, if_true, Bool.false_eq_true, if_false] <;> omega

theorem settling_leads (starts : Starts state thread (.complete stream id false))
    (attached : List EndpointId) : Leads (settling thread id attached state.work) := by
  have last : Leads ((thread, .finish id) :: state.work) := starts.leads_cons _
  have both : Leads ((thread, .add id) :: (thread, .finish id) :: state.work) := by
    refine List.pairwise_cons.mpr ⟨?_, last⟩
    intro entry member same
    rcases List.mem_cons.mp member with rfl | old
    · simp
    · exact starts.alone entry old same.symm
  induction attached with
  | nil => exact both
  | cons first rest ih =>
      refine List.pairwise_cons.mpr ⟨?_, ih⟩
      intro entry member same
      rcases List.mem_append.mp member with settles | others
      · obtain ⟨other, _, rfl⟩ := List.mem_map.mp settles
        simp
      · rcases List.mem_cons.mp others with rfl | others
        · simp
        · rcases List.mem_cons.mp others with rfl | old
          · simp
          · exact starts.alone entry old same.symm

theorem Starts.completed (starts : Starts state thread (.complete stream id false))
    (found : state.endpoints.find id = some endpoint)
    (given : endpoint.mTportStream = some stream) (off : endpoint.mTportTopic = none)
    (here : endpoint.gone = false) (lookup : state.streams.find stream = some tstream) : Sound { state with
      streams := state.streams.set stream { tstream with mReady := true }
      work := settling thread id (tstream.mTopics.flatMap (·.attached endpoint.mType)) state.work } := by
  have sound := starts.sound
  have few := sound.completes stream tstream lookup
  rw [pending_cons, ThreadStep.completes, decide_eq_true rfl] at few
  simp only [Bool.toNat_true] at few
  have unready : tstream.mReady = false := by
    cases ready : tstream.mReady with
    | false => rfl
    | true =>
        rw [ready] at few
        simp only [Bool.toNat_true] at few
        omega
  have at_thread := (sound.entries _ (.head _)).2 tstream lookup
  have later : Later { state with work := (thread, .complete stream id false) :: state.work }
      { state with
        streams := state.streams.set stream { tstream with mReady := true }
        work := settling thread id (tstream.mTopics.flatMap (·.attached endpoint.mType))
          state.work } := by
    refine ⟨fun other endpoint' old => ⟨endpoint', old, fun _ given => given, fun on => on⟩, ?_,
      fun _ _ held => .inl held⟩
    intro other _ tstream' found
    rcases RbTree.find_set_some found with ⟨rfl, rfl⟩ | ⟨_, old⟩
    · exact ⟨tstream, lookup, rfl, fun _ => rfl⟩
    · exact ⟨tstream', old, rfl, fun ready => ready⟩
  have joins : ∀ other, StreamCounts.joins { state with
      streams := state.streams.set stream { tstream with mReady := true }
      work := settling thread id (tstream.mTopics.flatMap (·.attached endpoint.mType))
        state.work } other = StreamCounts.joins { state with
          work := (thread, .complete stream id false) :: state.work } other := by
    intro other
    rw [joins_cons, StreamCounts.joins, StreamCounts.pending, settling_count]
    simp [ThreadStep.joins, StreamCounts.joins, pending]
    omega
  have plain : ∀ p : ThreadStep → Bool, (∀ other, p (.settle other) = false) →
      p (.add id) = false → p (.finish id) = false → p (.complete stream id false) = false →
        (settling thread id (tstream.mTopics.flatMap (·.attached endpoint.mType))
          state.work).countP (fun entry => p entry.2) = StreamCounts.pending { state with
            work := (thread, .complete stream id false) :: state.work } p := by
    intro p settle add finish complete
    rw [settling_count, pending_cons, add, finish, complete]
    simp [settle, pending]
  have settles : ∀ other endpoint', state.endpoints.find other = some endpoint' →
      (settling thread id (tstream.mTopics.flatMap (·.attached endpoint.mType))
        state.work).countP (fun entry => entry.2.settles other) ≤ 1 ∧
      (endpoint'.gone = true →
        (settling thread id (tstream.mTopics.flatMap (·.attached endpoint.mType))
          state.work).countP (fun entry => entry.2.settles other) = StreamCounts.pending { state with
            work := (thread, .complete stream id false) :: state.work } (·.settles other)) := by
    intro other endpoint' found'
    have due := sound.due other endpoint' found'
    have distinct := sound.attached_nodup lookup endpoint.mType
    have once := List.nodup_iff_count_le_one.mp distinct other
    have none_left : endpoint'.mTportStream = some stream → state.pending (·.settles other) = 0 :=
      fun given' => sound.unsettled lookup unready found' given'
    have before : StreamCounts.pending { state with
        work := (thread, .complete stream id false) :: state.work } (·.settles other) =
          state.pending (·.settles other) := pending_cons _
    have counts : (tstream.mTopics.flatMap (·.attached endpoint.mType)).countP
        (fun member => (ThreadStep.settle member).settles other) =
          (tstream.mTopics.flatMap (·.attached endpoint.mType)).count other := by
      apply List.countP_congr
      intro member _
      simp [ThreadStep.settles]
    have total : (settling thread id (tstream.mTopics.flatMap (·.attached endpoint.mType))
        state.work).countP (fun entry => entry.2.settles other) =
          (tstream.mTopics.flatMap (·.attached endpoint.mType)).count other +
            (decide (id = other)).toNat + state.pending (·.settles other) := by
      rw [settling_count, counts]
      rfl
    rw [total, before]
    by_cases own : id = other
    · subst own
      rw [found] at found'
      cases found'
      have absent : id ∉ tstream.mTopics.flatMap (·.attached endpoint.mType) := by
        intro on
        obtain ⟨_, same, _, _, on_node⟩ := sound.attached_mem lookup on
        have same : state.endpoints.find id = _ := same
        rw [found] at same
        cases same
        rw [off] at on_node
        cases on_node
      rw [List.count_eq_zero_of_not_mem absent, none_left given]
      refine ⟨by simp, fun away => ?_⟩
      rw [here] at away
      cases away
    · rw [decide_eq_false own]
      by_cases on : other ∈ tstream.mTopics.flatMap (·.attached endpoint.mType)
      · obtain ⟨_, same, present, given', _⟩ := sound.attached_mem lookup on
        have same : state.endpoints.find other = _ := same
        rw [found'] at same
        cases same
        rw [none_left given']
        refine ⟨once, fun away => ?_⟩
        rw [present] at away
        cases away
      · rw [List.count_eq_zero_of_not_mem on]
        have few := due.settles
        rw [before] at few
        rw [Bool.toNat_false, Nat.zero_add]
        exact ⟨few, fun _ => rfl⟩
  have settled : ∀ tstream', (state.streams.set stream { tstream with mReady := true }).find stream =
      some tstream' → tstream'.mThread = thread ∧ tstream'.mReady = true := by
    intro tstream' found
    rw [RbTree.find_set_self] at found
    cases found
    exact ⟨at_thread, rfl⟩
  exact
    { sound with
      freshStreams := RbTree.forall_set (sound.freshStreams stream tstream lookup)
        (fun other tstream' _ => sound.freshStreams other tstream')
      nodes := RbTree.forall_set (sound.nodes stream tstream lookup)
        (fun other tstream' _ => sound.nodes other tstream')
      listed := RbTree.forall_set (sound.listed stream tstream lookup)
        (fun other tstream' _ => sound.listed other tstream')
      given := by
        intro other endpoint' at_stream found given present
        refine (sound.given other endpoint' at_stream found given present).set lookup rfl ?_ rfl
        rfl
      counted := RbTree.forall_set (sound.counted stream tstream lookup)
        (fun other tstream' _ => sound.counted other tstream')
      due := by
        intro other endpoint' found'
        have due := sound.due other endpoint' found'
        have fewer := settles other endpoint' found'
        have unholds := plain (· = .unhold other) (by simp) (by simp) (by simp) (by simp)
        have removes := plain (· = .remove other) (by simp) (by simp) (by simp) (by simp)
        refine { due with joins := ?_, unholds := ?_, settles := fewer.1, removes := ?_, gone := ?_ }
        · rw [joins]
          exact due.joins
        · exact unholds.trans due.unholds
        · exact fun present => (congrArg (· + _) removes).trans (due.removes present)
        · intro away
          obtain ⟨on, destroyed, none_left, settled⟩ := due.gone away
          exact ⟨on, destroyed, removes.trans none_left,
            fun removed => (fewer.2 away).trans (settled removed)⟩
      completes := by
        have completing : ∀ other, StreamCounts.pending { state with
            work := settling thread id (tstream.mTopics.flatMap (·.attached endpoint.mType))
              state.work } (·.completes other) = state.pending (·.completes other) := by
          intro other
          rw [pending, settling_count]
          simp [ThreadStep.completes, pending]
        apply RbTree.forall_set
        · have rest := completing stream
          simp only [pending, Bool.toNat_true] at rest few ⊢
          omega
        · intro other tstream' apart old
          have few := sound.completes other tstream' old
          have rest := completing other
          rw [pending_cons, ThreadStep.completes, decide_eq_false (Ne.symm apart)] at few
          simp only [pending, Bool.toNat_false] at rest few ⊢
          omega
      creators := by
        intro at_stream other member
        obtain ⟨on_thread, serves⟩ := sound.creators at_stream other member
        exact ⟨on_thread, Serves.lasts later sound serves⟩
      entries := by
        intro entry member
        rcases List.mem_append.mp member with new | others
        · obtain ⟨other, on, rfl⟩ := List.mem_map.mp new
          obtain ⟨endpoint', found', _, given', on_node⟩ := sound.attached_mem lookup on
          exact ⟨endpoint', ⟨found', stream, given', settled⟩, on_node⟩
        · rcases List.mem_cons.mp others with rfl | others
          · exact ⟨stream, Serves.lasts later sound (sound.entries _ (.head _))⟩
          · rcases List.mem_cons.mp others with rfl | old
            · exact ⟨endpoint, found, stream, given, settled⟩
            · refine Owed.lasts later sound (sound.entries entry (.tail _ old)) ?_
              exact fun freed freeing =>
                RbTree.isSome_set (sound.frees (.tail _ old) freeing) _ _
      phase := by
        intro setting held
        obtain ⟨holder, at_holder, returned, phase⟩ := sound.phase setting held
        refine ⟨holder, at_holder, returned, phase.congr rfl
          (fun other zero => (joins other).trans zero) (fun _ live => ?_)⟩
        refine live.set lookup rfl ?_ rfl
        rfl }

end Completed

/-- The completion has the attached endpoints to settle, and the endpoint that created the
stream to add. -/
theorem Starts.complete {state : StreamCounts} {thread : Nat} {handle : StreamId}
    {id : EndpointId} {error : Bool} (starts : Starts state thread (.complete handle id error))
    (free : ¬ state.Blocked (.complete handle id error)) :
    ∃ next, state.complete thread id error = .ok next ∧ Steady next := by
  have sound := starts.sound
  obtain ⟨endpoint, tstream, found, given, off, _, here, lookup, _⟩ :=
    starts.given (sound.entries _ (.head _)) (decide_eq_true rfl) free
  simp only [StreamCounts.complete, Heap.read_some found, given, notNull, Heap.read_some lookup,
    bind, Except.bind]
  cases error with
  | true => exact ⟨state, rfl, sound.forget (by simp) (by simp), starts.leads⟩
  | false =>
      exact ⟨_, rfl, starts.completed found given off here lookup, settling_leads starts _⟩

/-- A stream without references is freed with nothing on it, and nobody on the way to it. -/
theorem Starts.freed {state : StreamCounts} {thread : Nat} {stream : StreamId}
    (starts : Starts state thread (.removeStream stream)) (idle : state.setting = none)
    {tstream : TportStream TopicType} (lookup : state.streams.find stream = some tstream)
    (unused : tstream.mRefCount = 0) : tstream.mTopics = [] ∧ state.waiting stream = 0 ∧
      Steady { state with streams := state.streams.erase stream } := by
  have sound := starts.sound
  have total : tstream.mRefCount + state.owing stream =
      tstream.mTopics.length + state.waiting stream := sound.counted stream tstream lookup
  simp only [owing, idle, unused] at total
  have none_waits : state.waiting stream = 0 := by omega
  have empty : tstream.mTopics = [] := List.length_eq_zero_iff.mp (by omega)
  refine ⟨empty, none_waits, ?_, starts.leads⟩
  have later : Later { state with work := (thread, .removeStream stream) :: state.work }
      { state with streams := state.streams.erase stream } := by
    refine ⟨fun other endpoint found => ⟨endpoint, found, fun _ given => given, fun on => on⟩, ?_,
      fun _ _ held => .inl held⟩
    intro other _ tstream' found
    exact ⟨tstream', (RbTree.find_erase_some found).2, rfl, fun ready => ready⟩
  have kept : ∀ {other tstream'}, (state.streams.erase stream).find other = some tstream' →
      state.streams.find other = some tstream' := fun found => (RbTree.find_erase_some found).2
  have at_thread : tstream.mThread = thread := by
    obtain ⟨tstream', lookup', at_thread⟩ := sound.entries _ (.head _)
    have lookup' : state.streams.find stream = some tstream' := lookup'
    rw [lookup] at lookup'
    cases lookup'
    exact at_thread
  have nobody : ∀ id endpoint, state.endpoints.find id = some endpoint →
      endpoint.added = false ∨ endpoint.gone = false →
        endpoint.mTportStream ≠ some stream := by
    intro id endpoint found present given
    cases added : endpoint.added with
    | false =>
        have waits : endpoint.waits stream = true := by simp [CountedEndpoint.waits, given, added]
        have := waiting_pos found waits
        omega
    | true =>
        have here : endpoint.gone = false := by simpa [added] using present
        obtain ⟨address, node⟩ :=
          Option.isSome_iff_exists.mp ((sound.due id endpoint found).added added)
        obtain ⟨ttopic, inside, _⟩ := (sound.listed stream tstream lookup address _ _ id).mpr
          ⟨endpoint, found, here, given, node, rfl, rfl⟩
        rw [empty] at inside
        cases inside
  have forgotten : Sound state := sound.forget (by simp) (by simp)
  exact
    { forgotten with
      freshStreams := fun other tstream' found => sound.freshStreams other tstream' (kept found)
      nodes := fun other tstream' found => sound.nodes other tstream' (kept found)
      listed := fun other tstream' found => sound.listed other tstream' (kept found)
      given := by
        intro id endpoint at_stream found given present
        obtain ⟨tstream', lookup', kind⟩ := sound.given id endpoint at_stream found given present
        refine ⟨tstream', ?_, kind⟩
        rw [RbTree.find_erase, if_neg]
        · exact lookup'
        · rintro rfl
          exact nobody id endpoint found present given
      counted := fun other tstream' found => forgotten.counted other tstream' (kept found)
      completes := fun other tstream' found => forgotten.completes other tstream' (kept found)
      creators := by
        intro at_stream other member
        obtain ⟨on_thread, serves⟩ := sound.creators at_stream other member
        exact ⟨on_thread, Serves.lasts later sound serves⟩
      entries := by
        intro entry member
        refine Owed.lasts later sound (sound.entries entry (.tail _ member)) ?_
        intro freed freeing
        have there := sound.frees (.tail _ member) freeing
        rw [RbTree.find_erase, if_neg]
        · exact there
        · rintro rfl
          -- Another look at the same count would stand behind this one on its thread.
          have owed := sound.entries entry (.tail _ member)
          rw [freeing] at owed
          obtain ⟨tstream', lookup', at_entry⟩ := owed
          have lookup' : state.streams.find freed = some tstream' := lookup'
          rw [lookup] at lookup'
          cases lookup'
          exact starts.alone entry member (at_entry.symm.trans at_thread) freed freeing
      phase := by
        intro setting held
        have held : state.setting = some setting := held
        rw [idle] at held
        cases held }

/-- What is next for a thread may start: nothing of the thread comes before it. -/
theorem Steady.starts {state : StreamCounts} (steady : Steady state) {thread : Nat}
    {step : ThreadStep} (first : state.next thread = some step) :
    Starts { state with work := state.work.erase (thread, step) } thread step := by
  obtain ⟨⟨own, step⟩, found, rfl⟩ := Option.map_eq_some_iff.mp first
  obtain rfl : own = thread := by simpa using List.find?_some found
  obtain ⟨front, back, split, skipped⟩ := List.find?_eq_some_iff_append.mp found |>.2
  have elsewhere : ∀ entry ∈ front, entry.1 ≠ own := by
    intro entry member
    simpa using skipped entry member
  have erased : state.work.erase (own, step) = front ++ back := by
    rw [split, List.erase_append_right _ (fun member => elsewhere _ member rfl),
      List.erase_cons_head]
  have leads := steady.leads
  rw [split] at leads
  refine ⟨?_, ?_, ?_⟩
  · rw [erased]
    refine steady.perm ?_
    rw [split]
    exact List.perm_middle.symm
  · rw [erased]
    exact leads.sublist ((List.append_sublist_append_left front).mpr (List.sublist_cons_self _ _))
  · rw [erased]
    intro entry member same
    rcases List.mem_append.mp member with before | behind
    · exact absurd same (elsewhere entry before)
    · have later := (List.pairwise_cons.mp (List.pairwise_append.mp leads).2.1).1
      exact later entry behind same.symm

/-- The removals that a step makes do not find the count short. -/
def Long (state : StreamCounts) (step : ThreadStep) : Prop :=
  ∀ id endpoint, state.endpoints.find id = some endpoint → step.Removes id endpoint →
    ¬ state.Short id endpoint

theorem removes_own {step : ThreadStep} {id : EndpointId} {endpoint : CountedEndpoint}
    (removes : step.Removes id endpoint) : step.endpoint = some id := by
  cases step with
  | remove other | settle other | finish other => exact congrArg some removes.1
  | _ => exact removes.elim

theorem long_iff {state : StreamCounts} {step : ThreadStep} {id : EndpointId}
    {endpoint : CountedEndpoint} (found : state.endpoints.find id = some endpoint)
    (own : step.endpoint = some id) :
    state.Long step ↔ ¬ (step.Removes id endpoint ∧ state.Short id endpoint) := by
  constructor
  · rintro long ⟨removes, short⟩
    exact long id endpoint found removes short
  · intro clear other endpoint' found' removes short
    obtain rfl : id = other := Option.some.inj (own.symm.trans (removes_own removes))
    rw [found] at found'
    cases found'
    exact clear ⟨removes, short⟩

/-- A step goes through, but for a removal that finds the count short. -/
theorem Starts.perform {state : StreamCounts} {thread : Nat} {step : ThreadStep}
    (starts : Starts state thread step) (free : ¬ state.Blocked step) :
    (state.Long step → ∃ next out, perform thread step state = .ok (next, out) ∧ Steady next ∧
      ∀ freed ∈ out, freed = ⟨0, 0⟩) ∧
    (¬ state.Long step → perform thread step state = .error .assertion) := by
  cases step with
  | add id =>
      obtain ⟨next, ran, steady⟩ := starts.attach free
      refine ⟨fun _ => ⟨next, [], ?_, steady, nofun⟩, fun short => absurd ?_ short⟩
      · simp only [StreamCounts.perform, ran]
        rfl
      · exact fun _ _ _ removes => removes.elim
  | unhold id =>
      obtain ⟨next, ran, steady⟩ := starts.unhold
      refine ⟨fun _ => ⟨next, [], ?_, steady, nofun⟩, fun short => absurd ?_ short⟩
      · simp only [StreamCounts.perform, ran]
        rfl
      · exact fun _ _ _ removes => removes.elim
  | complete handle id error =>
      obtain ⟨next, ran, steady⟩ := starts.complete free
      refine ⟨fun _ => ⟨next, [], ?_, steady, nofun⟩, fun short => absurd ?_ short⟩
      · simp only [StreamCounts.perform, ran]
        rfl
      · exact fun _ _ _ removes => removes.elim
  | removeStream stream =>
      refine ⟨fun _ => ?_, fun short => absurd (fun _ _ _ removes => removes.elim) short⟩
      obtain ⟨tstream, lookup, _⟩ := starts.sound.entries _ (.head _)
      have lookup : state.streams.find stream = some tstream := lookup
      simp only [StreamCounts.perform, Heap.read_some lookup, bind, Except.bind]
      split
      · rename_i unused
        obtain ⟨empty, none_waits, steady⟩ := starts.freed (not_not.mp free) lookup unused
        refine ⟨_, _, rfl, steady, ?_⟩
        rw [empty, none_waits]
        exact fun freed member => List.mem_singleton.mp member
      · exact ⟨state, [], rfl, ⟨starts.sound.forget (by simp) (by simp), starts.leads⟩, nofun⟩
  | remove id =>
      obtain ⟨endpoint, found, long, short⟩ := starts.remove
      rw [long_iff found rfl, not_not]
      simp only [ThreadStep.Removes, true_and, StreamCounts.perform]
      refine ⟨fun clear => ?_, fun unclear => ?_⟩
      · obtain ⟨next, ran, steady⟩ := long clear
        exact ⟨next, [], by rw [ran]; rfl, steady, nofun⟩
      · rw [short unclear]
        rfl
  | settle id =>
      obtain ⟨endpoint, found, long, short⟩ := starts.settle
      rw [long_iff found rfl, not_not]
      simp only [ThreadStep.Removes, true_and]
      refine ⟨fun clear => ?_, short⟩
      obtain ⟨next, ran, steady⟩ := long clear
      exact ⟨next, [], ran, steady, nofun⟩
  | finish id =>
      obtain ⟨endpoint, found, long, short⟩ := starts.finish
      rw [long_iff found rfl, not_not]
      simp only [ThreadStep.Removes, true_and, and_assoc]
      refine ⟨fun clear => ?_, short⟩
      obtain ⟨next, ran, steady⟩ := long clear
      exact ⟨next, [], ran, steady, nofun⟩

/-- An event thread goes on exactly when the action is clear. -/
theorem Steady.event {state : StreamCounts} (steady : Steady state) (thread : Nat) :
    (state.Clear (.event thread) → ∃ next out, StreamCounts.event thread state = .ok (next, out) ∧
      Steady next ∧ ∀ freed ∈ out, freed = ⟨0, 0⟩) ∧
    (¬ state.Clear (.event thread) → StreamCounts.event thread state = .error .assertion) := by
  unfold StreamCounts.event
  cases first : state.next thread with
  | none =>
      refine ⟨fun _ => ⟨state, [], rfl, steady, nofun⟩, fun unclear => absurd ?_ unclear⟩
      intro step id endpoint next
      rw [first] at next
      cases next
  | some step =>
      have clear_iff : state.Clear (.event thread) ↔ state.Long step := by
        constructor
        · exact fun clear id endpoint => clear step id endpoint first
        · intro long step' id endpoint next
          rw [first] at next
          cases next
          exact long id endpoint
      rw [clear_iff]
      simp only
      split
      · rename_i blocked
        refine ⟨fun _ => ⟨state, [], rfl, steady, nofun⟩, fun short => absurd ?_ short⟩
        intro id endpoint _ removes
        cases step <;> first | exact blocked.elim | exact removes.elim
      · rename_i free
        exact (steady.starts first).perform free

theorem Steady.setStream {state : StreamCounts} (steady : Steady state) :
    ∃ next, state.setStream = .ok next ∧ Steady next := by
  cases held : state.setting with
  | none => exact ⟨state, by simp only [StreamCounts.setStream, held], steady⟩
  | some setting =>
      cases setting with
      | find id => exact ⟨state, by simp only [StreamCounts.setStream, held], steady⟩
      | enqueue id stream => exact steady.enqueue held
      | store id stream => exact steady.store held
      | increment id stream => exact steady.increment held
      | unlock id => exact steady.unlock held

/-- So does every action. -/
theorem Steady.step {state : StreamCounts} (steady : Steady state) (action : Action) :
    (state.Clear action → ∃ next out, StreamCounts.step action state = .ok (next, out) ∧
      Steady next ∧ ∀ freed ∈ out, freed = ⟨0, 0⟩) ∧
    (¬ state.Clear action → StreamCounts.step action state = .error .assertion) := by
  have silent : ∀ {result : Except Fault StreamCounts},
      (∃ next, result = .ok next ∧ Steady next) → ∃ next out,
        result.map (·, ([] : List FreedStream)) = .ok (next, out) ∧ Steady next ∧
          ∀ freed ∈ out, freed = ⟨0, 0⟩ := by
    rintro result ⟨next, ran, steady⟩
    exact ⟨next, [], by rw [ran]; rfl, steady, nofun⟩
  cases action with
  | create mType mTopic =>
      exact ⟨fun _ => ⟨_, [], rfl, steady.create mType mTopic, nofun⟩,
        fun unclear => absurd trivial unclear⟩
  | found stream =>
      exact ⟨fun _ => silent (steady.found stream), fun unclear => absurd trivial unclear⟩
  | addStream thread =>
      exact ⟨fun _ => silent (steady.addStream thread), fun unclear => absurd trivial unclear⟩
  | setStream =>
      exact ⟨fun _ => silent steady.setStream, fun unclear => absurd trivial unclear⟩
  | completed stream error =>
      exact ⟨fun _ => silent (steady.completed stream error), fun unclear => absurd trivial unclear⟩
  | destroy id => exact ⟨fun _ => silent (steady.destroy id), fun unclear => absurd trivial unclear⟩
  | event thread => exact steady.event thread

/-- A reference that has still to be taken is that of an endpoint which waits, or has a node. -/
theorem Steady.state_counted {state : StreamCounts} (steady : Steady state) : state.Counted where
  positive stream tstream lookup := by
    have total := steady.toSound.counted stream tstream lookup
    have covered : state.owing stream ≤ tstream.mTopics.length + state.waiting stream := by
      rw [owing]
      split
      · rename_i id at_stream held
        split
        · rename_i same
          subst same
          obtain ⟨endpoint, found, returned, stored⟩ := steady.phase _ held
          simp only [SetStream.endpoint, Phase] at found stored
          have due := steady.due id endpoint found
          cases added : endpoint.added with
          | false =>
              have waits : endpoint.waits at_stream = true := by
                simp [CountedEndpoint.waits, stored, added]
              have := waiting_pos found waits
              omega
          | true =>
              have here : endpoint.gone = false := by
                cases away : endpoint.gone with
                | false => rfl
                | true => exact absurd (due.gone away).2.1 (by simp [returned])
              obtain ⟨address, node⟩ := Option.isSome_iff_exists.mp (due.added added)
              obtain ⟨ttopic, inside, _⟩ :=
                (steady.listed at_stream tstream lookup address _ _ id).mpr
                  ⟨endpoint, found, here, stored, node, rfl, rfl⟩
              have := List.length_pos_of_mem inside
              omega
        · exact Nat.zero_le _
      · exact Nat.zero_le _
    omega
  balanced idle stream tstream lookup := by
    have total := steady.toSound.counted stream tstream lookup
    simp only [owing, idle] at total
    omega

theorem Steady.run_iff {state : StreamCounts} (steady : Steady state) (actions : List Action) :
    (∃ last out, run actions state = .ok (last, out) ∧ last.Counted ∧
        ∀ freed ∈ out, freed = ⟨0, 0⟩) ↔
      Step.Along StreamCounts.step Clear state actions := by
  induction actions generalizing state with
  | nil => exact iff_of_true ⟨state, [], rfl, steady.state_counted, nofun⟩ trivial
  | cons action rest ih =>
      obtain ⟨goes, fails⟩ := steady.step action
      by_cases clear : state.Clear action
      · obtain ⟨next, out, ran, steady', right⟩ := goes clear
        have rest_iff : Step.Along StreamCounts.step Clear state (action :: rest) ↔
            Step.Along StreamCounts.step Clear next rest := by
          constructor
          · exact fun along => along.2 next out ran
          · refine fun along => ⟨clear, fun next' out' ran' => ?_⟩
            cases ran.symm.trans ran'
            exact along
        rw [rest_iff, ← ih steady']
        constructor
        · rintro ⟨last, outputs, ran', counted, all_right⟩
          obtain ⟨next', out', more, one, two, rfl⟩ := Step.andThen_inv ran'
          cases ran.symm.trans one
          exact ⟨last, more, two, counted,
            fun freed member => all_right freed (List.mem_append_right _ member)⟩
        · rintro ⟨last, more, two, counted, all_right⟩
          refine ⟨last, out ++ more, Step.andThen_ok_ok ran two, counted, ?_⟩
          intro freed member
          exact (List.mem_append.mp member).elim (right freed) (all_right freed)
      · refine iff_of_false ?_ (fun along => clear along.1)
        rintro ⟨last, outputs, ran, _⟩
        have failed : run (action :: rest) state = .error .assertion :=
          Step.andThen_error (fails clear) _
        rw [failed] at ran
        cases ran

/-- In a run of all threads the counts are right to its end, and streams are freed with nothing
left on them, exactly when no removal empties a node while the count of its stream is short. -/
theorem run_counted_iff (actions : List Action) :
    (∃ last out, run actions new = .ok (last, out) ∧ last.Counted ∧
        ∀ freed ∈ out, freed = ⟨0, 0⟩) ↔
      Step.Along StreamCounts.step Clear new actions :=
  new_steady.run_iff actions

theorem ticks_plain : 0 ∉ ([116] : Bytes) := by decide

theorem trades_plain : 0 ∉ ([117] : Bytes) := by decide

/-- A publisher on one topic is attached. Another finds its stream and has its add event queued
and run, on a second topic, before `SetStream` takes its reference; and the first is removed. -/
def tooEarly : List Action :=
  [.create .pub ⟨[116], ticks_plain⟩, .addStream 0, .setStream, .setStream, .setStream,
    .completed 1 false, .event 0, .event 0, .event 0, .event 0,
    .create .pub ⟨[117], trades_plain⟩, .found 1, .setStream, .destroy 0, .setStream,
    .event 0, .event 0, .event 0]

theorem run_tooEarly : ¬ ∃ last out, run tooEarly new = .ok (last, out) ∧ last.Counted ∧
    ∀ freed ∈ out, freed = ⟨0, 0⟩ := by
  have fails : run tooEarly new = .error .assertion := by decide +kernel
  rw [fails]
  rintro ⟨last, out, ran, _⟩
  cases ran

end Sbf.StreamCounts
