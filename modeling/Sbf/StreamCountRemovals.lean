import Sbf.StreamCountEvents

set_option autoImplicit false

namespace Sbf.StreamCounts

open Octets Topics

/-- A `SetStream` has stored the stream without a reference to it, and the add callback has
dropped one since. -/
def Early (state : StreamCounts) (stream : StreamId) : Prop :=
  ∃ id endpoint, state.setting = some (.increment id stream) ∧
    state.endpoints.find id = some endpoint ∧ endpoint.added = true

section Leaves

variable {state : StreamCounts} {thread : Nat} {step : ThreadStep} {id : EndpointId}
  {endpoint : CountedEndpoint} {stream : StreamId} {tstream : TportStream TopicType}
  {ttopic : TportTopic} (leaves : Leaves state thread step id endpoint stream tstream ttopic)
include leaves

theorem Leaves.nodes : Nodes tstream.mTopics :=
  leaves.starts.sound.nodes stream tstream leaves.lookup

/-- Nodes only have endpoints of the stream's kind. -/
theorem Leaves.alone (last : ttopic.attached endpoint.mType = [id]) (type : TopicType)
    (other : EndpointId) (inside : other ∈ ttopic.attached type) :
    type = endpoint.mType ∧ other = id := by
  have sound := leaves.starts.sound
  obtain ⟨endpoint', found, here, given, _, of_type, _⟩ :=
    (sound.listed stream tstream leaves.lookup ttopic.address ttopic.mTopic type other).mp
      ⟨ttopic, leaves.member, rfl, rfl, inside⟩
  obtain ⟨tstream', lookup, kind⟩ := sound.given other endpoint' stream found given (.inr here)
  have lookup : state.streams.find stream = some tstream' := lookup
  rw [leaves.lookup] at lookup
  cases lookup
  have same : type = endpoint.mType := of_type.symm.trans (kind.symm.trans leaves.kind)
  rw [same, last] at inside
  exact ⟨same, List.mem_singleton.mp inside⟩

/-- The endpoint for which a reference was dropped too early has a node of its own. -/
theorem Leaves.early_node (last : ttopic.attached endpoint.mType = [id])
    (early : state.Early stream) : tstream.mTopics.filter (·.address ≠ ttopic.address) ≠ [] := by
  have sound := leaves.starts.sound
  obtain ⟨other, endpoint', held, found', added⟩ := early
  obtain ⟨holder, at_holder, returned, stored⟩ := sound.phase _ held
  have at_holder : state.endpoints.find other = some holder := at_holder
  rw [found'] at at_holder
  cases at_holder
  have stored : endpoint'.mTportStream = some stream := stored
  have due := sound.due other endpoint' found'
  have here : endpoint'.gone = false := by
    cases away : endpoint'.gone with
    | false => rfl
    | true => exact absurd (due.gone away).2.1 (by simp [returned])
  obtain ⟨address, node⟩ := Option.isSome_iff_exists.mp (due.added added)
  obtain ⟨ttopic', member, at_address, _, on⟩ :=
    (sound.listed stream tstream leaves.lookup address endpoint'.mTopic endpoint'.mType other).mpr
      ⟨endpoint', found', here, stored, node, rfl, rfl⟩
  apply List.ne_nil_of_mem (a := ttopic')
  refine List.mem_filter.mpr ⟨member, ?_⟩
  simp only [ne_eq, decide_not, Bool.not_eq_eq_eq_not, Bool.not_true, decide_eq_false_iff_not]
  intro same
  obtain rfl := List.inj_on_of_nodup_map leaves.nodes.addresses member leaves.member same
  obtain rfl := (leaves.alone last _ _ on).2
  rw [leaves.found] at found'
  cases found'
  rw [leaves.destroyed] at returned
  cases returned

/-- A count of one is a count of this node, but for a reference that is dropped before it is
taken. -/
theorem Leaves.only_node (one : tstream.mRefCount = 1) (early : ¬ state.Early stream) :
    tstream.mTopics.filter (·.address ≠ ttopic.address) = [] := by
  have sound := leaves.starts.sound
  have total := sound.counted stream tstream leaves.lookup
  have shorter := length_filter leaves.nodes.addresses leaves.member
  have covered : state.owing stream ≤ state.waiting stream := by
    rw [owing]
    split
    · rename_i other at_stream held
      split
      · rename_i same
        subst same
        obtain ⟨endpoint', found', _, stored⟩ := sound.phase _ held
        have found' : state.endpoints.find other = some endpoint' := found'
        refine waiting_pos found' ?_
        have unadded : endpoint'.added = false := by
          cases added : endpoint'.added with
          | false => rfl
          | true => exact absurd ⟨other, endpoint', held, found', added⟩ early
        have stored : endpoint'.mTportStream = some at_stream := stored
        simp [CountedEndpoint.waits, stored, unadded]
      · exact Nat.zero_le _
    · exact Nat.zero_le _
  have total : tstream.mRefCount + state.owing stream =
      tstream.mTopics.length + state.waiting stream := total
  apply List.length_eq_zero_iff.mp
  omega

/-- The removal goes through, but if it empties a node while the count is short of what a
`SetStream` has still to take. -/
theorem Leaves.detach
    (clear : ttopic.attached endpoint.mType = [id] → state.Early stream → tstream.mRefCount ≠ 1) :
    ∃ next, state.detach thread id endpoint = .ok next ∧ Steady next := by
  have sound := leaves.starts.sound
  have small := (sound.freshStreams stream tstream leaves.lookup).2
  have at_address := tstream.topicAt_of_mem leaves.nodes.addresses leaves.member
  simp only [StreamCounts.detach, leaves.given, notNull, Heap.read_some leaves.lookup, leaves.node,
    at_address, leaves.on, not_true_eq_false, ↓reduceIte, TportTopic.attached_unlink, bind,
    Except.bind]
  split
  · rename_i emptied
    have last := only_of_erase leaves.on emptied
    have filtered : (Topics.update tstream.mTopics (ttopic.unlink id endpoint.mType)).filter
        (·.address ≠ ttopic.address) = tstream.mTopics.filter (·.address ≠ ttopic.address) := by
      simpa using filter_update tstream.mTopics (ttopic.unlink id endpoint.mType)
    have shorter := length_filter leaves.nodes.addresses leaves.member
    have fits : ¬ (tstream.mRefCount - 1 = 0 ∧
        tstream.mTopics.filter (·.address ≠ ttopic.address) ≠ []) := by
      rintro ⟨zero, more⟩
      have one : tstream.mRefCount = 1 := by omega
      exact more (leaves.only_node one (fun early => clear last early one))
    simp only [TportStream.removeTopic, filtered, if_neg fits]
    refine ⟨_, rfl, ?_, ?_⟩
    · have sound' := fun work left => leaves.sound _ (tstream.mRefCount - 1) work left
        (by omega) (fun other inside => small other (List.mem_filter.mp inside).1)
        (leaves.nodes.filter _)
        (onNode_filter leaves.nodes leaves.member id endpoint.mType (leaves.alone last))
      simp only [leaves.given, leaves.node] at sound'
      split
      · exact sound' _ (.inr rfl)
      · exact sound' _ (.inl rfl)
    · simp only
      split
      · exact leaves.starts.leads_cons _
      · exact leaves.starts.leads
  · refine ⟨_, rfl, ?_, leaves.starts.leads⟩
    have nodes := leaves.nodes.update leaves.member (by simp) (by simp)
      ((leaves.nodes.linked ttopic leaves.member).unlink id endpoint.mType)
    have small' : ∀ other ∈ Topics.update tstream.mTopics (ttopic.unlink id endpoint.mType),
        other.address < state.fresh := by
      intro other inside
      rcases (mem_update leaves.member (by simp) other).mp inside with ⟨old, _⟩ | rfl
      · exact small other old
      · rw [TportTopic.unlink_address]
        exact small ttopic leaves.member
    have sound' := leaves.sound _ tstream.mRefCount _ (.inl rfl) (by rw [length_update]) small' nodes
      (onNode_unlink leaves.nodes leaves.member id endpoint.mType)
    simp only [leaves.given, leaves.node] at sound'
    exact sound'

/-- Then the assertion fails: the count is down to zero with a node left. -/
theorem Leaves.detach_fails (last : ttopic.attached endpoint.mType = [id])
    (early : state.Early stream) (one : tstream.mRefCount = 1) :
    state.detach thread id endpoint = .error .assertion := by
  have at_address := tstream.topicAt_of_mem leaves.nodes.addresses leaves.member
  have filtered : (Topics.update tstream.mTopics (ttopic.unlink id endpoint.mType)).filter
      (·.address ≠ ttopic.address) = tstream.mTopics.filter (·.address ≠ ttopic.address) := by
    simpa using filter_update tstream.mTopics (ttopic.unlink id endpoint.mType)
  simp only [StreamCounts.detach, leaves.given, notNull, Heap.read_some leaves.lookup, leaves.node,
    at_address, TportTopic.attached_unlink, last, List.mem_singleton, not_true_eq_false, ↓reduceIte,
    List.erase_cons_head, TportStream.removeTopic, filtered, bind, Except.bind]
  rw [if_pos ⟨by omega, leaves.early_node last early⟩]

end Leaves

/-- The removal of an endpoint takes the last one off a node of a stream that has no other
reference, because a `SetStream` has still to take its own. -/
def Short (state : StreamCounts) (id : EndpointId) (endpoint : CountedEndpoint) : Prop :=
  ∃ stream tstream ttopic, endpoint.mTportStream = some stream ∧
    state.streams.find stream = some tstream ∧ ttopic ∈ tstream.mTopics ∧
    endpoint.mTportTopic = some ttopic.address ∧ ttopic.attached endpoint.mType = [id] ∧
    state.Early stream ∧ tstream.mRefCount = 1

/-- The action does not empty a node while the count of the stream is short. -/
def Clear (state : StreamCounts) : Action → Prop
  | .event thread => ∀ step id endpoint, state.next thread = some step →
      state.endpoints.find id = some endpoint → step.Removes id endpoint →
        ¬ state.Short id endpoint
  | _ => True

section Remove

variable {state : StreamCounts} {thread : Nat} {step : ThreadStep} {id : EndpointId}
  {endpoint : CountedEndpoint} (starts : Starts state thread step)
  (removing : step = .remove id ∨ step = .settle id ∨ step = .finish id)
  (found : state.endpoints.find id = some endpoint)
include starts removing found

/-- A step of an endpoint runs on the thread of its stream. -/
theorem Starts.at_thread {stream : StreamId} (given : endpoint.mTportStream = some stream)
    {tstream : TportStream TopicType} (lookup : state.streams.find stream = some tstream) :
    tstream.mThread = thread := by
  have sound := starts.sound
  have owed := sound.entries _ (.head _)
  rcases removing with rfl | rfl | rfl
  · obtain ⟨at_stream, ⟨endpoint', found', given'⟩, on_thread⟩ := owed
    have found' : state.endpoints.find id = some endpoint' := found'
    rw [found] at found'
    cases found'
    rcases given' with given' | storing
    · rw [given] at given'
      cases given'
      exact on_thread tstream lookup
    · obtain ⟨holder, at_holder, _, none_given, _⟩ := sound.phase _ storing
      have at_holder : state.endpoints.find id = some holder := at_holder
      rw [found] at at_holder
      cases at_holder
      rw [given] at none_given
      cases none_given
  · obtain ⟨endpoint', settles, _⟩ := owed
    exact (settles.on_stream found given lookup).1
  · obtain ⟨endpoint', settles⟩ := owed
    exact (settles.on_stream found given lookup).1

/-- A removal finds its endpoint on a node. -/
theorem Starts.leaves (ready : endpoint.mReady = true) (here : endpoint.gone = false)
    (destroyed : endpoint.mDestroyed = true) (removes : state.pending (· = .remove id) = 0)
    (settles : endpoint.mRemoved = true → state.pending (·.settles id) = 0) :
    ∃ stream tstream ttopic, Leaves state thread step id endpoint stream tstream ttopic := by
  have sound := starts.sound
  have on := (sound.due id endpoint found).ready ready
  obtain ⟨address, node⟩ := Option.isSome_iff_exists.mp on
  cases given : endpoint.mTportStream with
  | none =>
      rw [(sound.streamless id endpoint found given).1] at on
      cases on
  | some stream =>
      obtain ⟨tstream, lookup, kind⟩ := sound.given id endpoint stream found given (.inr here)
      obtain ⟨ttopic, member, rfl, _, inside⟩ :=
        (sound.listed stream tstream lookup address endpoint.mTopic endpoint.mType id).mpr
          ⟨endpoint, found, here, given, node, rfl, rfl⟩
      exact ⟨stream, tstream, ttopic, starts, removing, found, given, lookup,
        starts.at_thread removing found given lookup, kind, here, destroyed, member, node, inside,
        removes, settles⟩

/-- It goes through exactly when the count is not short. -/
theorem Starts.detach (ready : endpoint.mReady = true) (here : endpoint.gone = false)
    (destroyed : endpoint.mDestroyed = true) (removes : state.pending (· = .remove id) = 0)
    (settles : endpoint.mRemoved = true → state.pending (·.settles id) = 0) :
    (¬ state.Short id endpoint → ∃ next, state.detach thread id endpoint = .ok next ∧ Steady next) ∧
      (state.Short id endpoint → state.detach thread id endpoint = .error .assertion) := by
  obtain ⟨stream, tstream, ttopic, leaves⟩ :=
    starts.leaves removing found ready here destroyed removes settles
  constructor
  · intro long
    exact leaves.detach (fun last early one => long ⟨stream, tstream, ttopic, leaves.given,
      leaves.lookup, leaves.member, leaves.node, last, early, one⟩)
  · rintro ⟨stream', tstream', ttopic', given, lookup, member, node, last, early, one⟩
    rw [leaves.given] at given
    cases given
    rw [leaves.lookup] at lookup
    cases lookup
    rw [leaves.node] at node
    obtain rfl := List.inj_on_of_nodup_map leaves.nodes.addresses leaves.member member
      (Option.some.inj node)
    exact leaves.detach_fails last early one

end Remove

/-- The remove event puts the removal off, or carries it out. -/
theorem Starts.remove {state : StreamCounts} {thread : Nat} {id : EndpointId}
    (starts : Starts state thread (.remove id)) : ∃ endpoint,
      state.endpoints.find id = some endpoint ∧
      (¬ (endpoint.mReady = true ∧ state.Short id endpoint) →
        ∃ next, state.removeEventCb thread id = .ok next ∧ Steady next) ∧
      (endpoint.mReady = true ∧ state.Short id endpoint →
        state.removeEventCb thread id = .error .assertion) := by
  have sound := starts.sound
  obtain ⟨_, ⟨endpoint, known, _⟩, _⟩ := sound.entries _ (.head _)
  have found : state.endpoints.find id = some endpoint := known
  have due := sound.due id endpoint found
  have holder : ∀ setting, state.setting = some setting → setting.endpoint = id →
      endpoint.mDestroyed = false := fun _ held own => sound.returned known held own
  have here : endpoint.gone = false := by
    cases away : endpoint.gone with
    | false => rfl
    | true =>
        have none_left := (due.gone away).2.2.1
        rw [pending_cons] at none_left
        simp at none_left
  have removes := due.removes here
  rw [pending_cons, decide_eq_true rfl] at removes
  obtain ⟨destroyed, unmarked, none_left⟩ : endpoint.mDestroyed = true ∧
      endpoint.mRemoved = false ∧ state.pending (· = .remove id) = 0 := by
    cases destroyed : endpoint.mDestroyed <;> cases removed : endpoint.mRemoved <;>
      simp_all
  refine ⟨endpoint, found, ?_⟩
  simp only [removeEventCb, Heap.read_some found, bind, Except.bind]
  cases ready : endpoint.mReady with
  | false =>
      simp only [Bool.not_false, if_true, Bool.false_eq_true, false_and, not_false_eq_true,
        true_implies, false_implies, and_true]
      refine ⟨_, rfl, ?_, starts.leads⟩
      have alike : Alike endpoint { endpoint with mRemoved := true, mReady := false } :=
        ⟨rfl, rfl, rfl, rfl, rfl, rfl⟩
      refine sound.setFlags known alike ?_ ?_ ?_ (fun entry member => .inl (.tail _ member))
      · intro p unrelated
        rw [pending_cons, unrelated]
        rfl
      · refine { due with removes := fun _ => ?_, ready := ?_, gone := fun away => ?_ }
        · rw [destroyed]
          exact congrArg (· + 1) none_left
        · intro not_yet
          cases not_yet
        · rw [here] at away
          cases away
      · exact holder
  | true =>
      simp only [Bool.not_true, Bool.false_eq_true, if_false, true_and]
      exact starts.detach (.inl rfl) found ready here destroyed none_left (by simp [unmarked])

theorem Short.of_ready {state : StreamCounts} {id : EndpointId} {endpoint : CountedEndpoint}
    (found : state.endpoints.find id = some endpoint) :
    Short { state with endpoints := state.endpoints.set id { endpoint with mReady := true } } id
      { endpoint with mReady := true } ↔ state.Short id endpoint := by
  have early : ∀ stream, Early { state with
      endpoints := state.endpoints.set id { endpoint with mReady := true } } stream ↔
        state.Early stream := by
    intro stream
    apply exists_congr
    intro other
    by_cases own : other = id
    · subst own
      simp only [RbTree.find_set_self, found, Option.some.injEq, exists_eq_left', exists_and_left]
    · simp only [RbTree.find_set, own, ↓reduceIte]
  simp only [Short, early]

/-- What a removal that was put off can rely on. -/
theorem Due.marked {endpoint : CountedEndpoint} {joining unholding removing settling : Nat}
    (due : Due endpoint joining unholding removing (settling + 1))
    (removed : endpoint.mRemoved = true) :
    endpoint.gone = false ∧ endpoint.mDestroyed = true ∧ removing = 0 ∧ settling = 0 := by
  have here : endpoint.gone = false := by
    cases away : endpoint.gone with
    | false => rfl
    | true => cases (due.gone away).2.2.2 removed
  have removes := due.removes here
  have settles := due.settles
  rw [removed] at removes
  refine ⟨here, ?_, ?_, by omega⟩
  · cases destroyed : endpoint.mDestroyed with
    | true => rfl
    | false =>
        rw [destroyed] at removes
        cases removes
  · cases destroyed : endpoint.mDestroyed <;> simp_all

/-- The completion makes an endpoint ready, and carries out its removal if that was put off. -/
theorem Starts.settle {state : StreamCounts} {thread : Nat} {id : EndpointId}
    (starts : Starts state thread (.settle id)) : ∃ endpoint,
      state.endpoints.find id = some endpoint ∧
      (¬ (endpoint.mRemoved = true ∧ state.Short id endpoint) →
        ∃ next, perform thread (.settle id) state = .ok (next, []) ∧ Steady next) ∧
      (endpoint.mRemoved = true ∧ state.Short id endpoint →
        perform thread (.settle id) state = .error .assertion) := by
  have sound := starts.sound
  obtain ⟨endpoint, ⟨known, _⟩, on⟩ := sound.entries _ (.head _)
  have found : state.endpoints.find id = some endpoint := known
  have due := sound.due id endpoint found
  have holder : ∀ setting, state.setting = some setting → setting.endpoint = id →
      endpoint.mDestroyed = false := fun _ held own => sound.returned known held own
  have alike : Alike endpoint { endpoint with mReady := true } := ⟨rfl, rfl, rfl, rfl, rfl, rfl⟩
  have ready : Sound { state with
      endpoints := state.endpoints.set id { endpoint with mReady := true }
      work := (thread, .settle id) :: state.work } :=
    sound.setFlags known alike (fun _ _ => rfl) { due with ready := fun _ => on } holder
      (fun _ => .inl)
  have starts' : Starts { state with
      endpoints := state.endpoints.set id { endpoint with mReady := true } } thread (.settle id) :=
    ⟨ready, starts.leads, starts.alone⟩
  refine ⟨endpoint, found, ?_⟩
  simp only [perform, Heap.read_some found, bind, Except.bind]
  by_cases removed : endpoint.mRemoved = true
  · rw [if_pos removed]
    rw [pending_cons (p := (·.settles id)), ThreadStep.settles, decide_eq_true rfl] at due
    obtain ⟨here, destroyed, none_left, settled⟩ := due.marked removed
    rw [pending_cons] at none_left
    have found' : (state.endpoints.set id { endpoint with mReady := true }).find id =
        some { endpoint with mReady := true } := RbTree.find_set_self _ _ _
    obtain ⟨long, short⟩ := starts'.detach (.inr (.inl rfl)) found' rfl here destroyed
      (Nat.eq_zero_of_add_eq_zero_right none_left) (fun _ => settled)
    rw [Short.of_ready found] at long short
    simp only [removeEventCb, Heap.read_some found', Bool.not_true, Bool.false_eq_true, if_false,
      bind, Except.bind]
    refine ⟨fun clear => ?_, fun both => by rw [short both.2]; rfl⟩
    obtain ⟨next, ran, steady⟩ := long (fun is_short => clear ⟨removed, is_short⟩)
    exact ⟨next, by rw [ran]; rfl, steady⟩
  · rw [if_neg removed]
    exact ⟨fun _ => ⟨_, rfl, starts'.sound.forget (by simp) (by simp), starts.leads⟩,
      fun marked => absurd marked.1 removed⟩

/-- So does the completion's last look at the endpoint that it started from. -/
theorem Starts.finish {state : StreamCounts} {thread : Nat} {id : EndpointId}
    (starts : Starts state thread (.finish id)) : ∃ endpoint,
      state.endpoints.find id = some endpoint ∧
      (¬ (endpoint.mRemoved = true ∧ endpoint.mReady = true ∧ state.Short id endpoint) →
        ∃ next, perform thread (.finish id) state = .ok (next, []) ∧ Steady next) ∧
      (endpoint.mRemoved = true ∧ endpoint.mReady = true ∧ state.Short id endpoint →
        perform thread (.finish id) state = .error .assertion) := by
  have sound := starts.sound
  obtain ⟨endpoint, known, _⟩ := sound.entries _ (.head _)
  have found : state.endpoints.find id = some endpoint := known
  have due := sound.due id endpoint found
  have holder : ∀ setting, state.setting = some setting → setting.endpoint = id →
      endpoint.mDestroyed = false := fun _ held own => sound.returned known held own
  refine ⟨endpoint, found, ?_⟩
  simp only [perform, Heap.read_some found, bind, Except.bind]
  by_cases removed : endpoint.mRemoved = true
  · rw [if_pos removed]
    rw [pending_cons (p := (·.settles id)), ThreadStep.settles, decide_eq_true rfl] at due
    obtain ⟨here, destroyed, none_left, settled⟩ := due.marked removed
    rw [pending_cons] at none_left
    simp only [removeEventCb, Heap.read_some found, bind, Except.bind]
    by_cases ready : endpoint.mReady = true
    · obtain ⟨long, short⟩ := starts.detach (.inr (.inr rfl)) found ready here destroyed
        (Nat.eq_zero_of_add_eq_zero_right none_left) (fun _ => settled)
      rw [if_neg (by simp [ready])]
      refine ⟨fun clear => ?_, fun all => by rw [short all.2.2]; rfl⟩
      obtain ⟨next, ran, steady⟩ := long (fun is_short => clear ⟨removed, ready, is_short⟩)
      exact ⟨next, by rw [ran]; rfl, steady⟩
    · rw [if_pos (by simp [ready])]
      refine ⟨fun _ => ⟨_, rfl, ?_, starts.leads⟩, fun all => absurd all.2.1 ready⟩
      have alike : Alike endpoint { endpoint with mRemoved := true } := ⟨rfl, rfl, rfl, rfl, rfl, rfl⟩
      have kept : Sound state := sound.forget (by simp) (by simp)
      have kept_due := kept.due id endpoint found
      refine kept.setFlags found alike (fun _ _ => rfl) { kept_due with removes := ?_, gone := ?_ }
        holder (fun _ => .inl)
      · intro present
        have removes := kept_due.removes present
        rw [removed] at removes
        exact removes
      · intro away
        rw [here] at away
        cases away
  · rw [if_neg removed]
    exact ⟨fun _ => ⟨state, rfl, sound.forget (by simp) (by simp), starts.leads⟩,
      fun marked => absurd marked.1 removed⟩

end Sbf.StreamCounts
