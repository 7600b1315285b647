import Sbf.SubWeights

set_option autoImplicit false

namespace Sbf

open Octets

/-- The fields of an endpoint that tell what it weighs, and where. -/
def CountedEndpoint.traits (endpoint : CountedEndpoint) :
    TopicType × CString × Bool × Option StreamId :=
  (endpoint.mType, endpoint.mTopic, endpoint.gone, endpoint.mTportStream)

namespace StreamCounts

variable {topicWeight : CString → UInt32} {before after : StreamCounts} {id : EndpointId}

theorem threadOf_of_read {endpoint : CountedEndpoint} {stream : StreamId}
    {tstream : TportStream TopicType} (given : notNull endpoint.mTportStream = .ok stream)
    (lookup : before.streams.read stream = .ok tstream) :
    before.threadOf endpoint = some tstream.mThread := by
  rw [threadOf, notNull_ok given, Option.bind_some, Heap.find_of_read lookup, Option.map_some]

section Burden

/-- An endpoint whose stream is being set is no burden yet. -/
theorem burden_held (held : before.setting.map (·.endpoint) = some id) (thread : Nat) :
    before.burden topicWeight thread id = 0 := by
  unfold burden
  split
  · rfl
  · exact if_neg (fun weighs => weighs.2.2.1 held)

theorem burden_absent (absent : before.endpoints.find id = none) (thread : Nat) :
    before.burden topicWeight thread id = 0 := by
  rw [burden, absent]

/-- An endpoint that is removed is no burden any more. -/
theorem burden_gone {endpoint : CountedEndpoint} (found : before.endpoints.find id = some endpoint)
    (gone : endpoint.gone = true) (thread : Nat) : before.burden topicWeight thread id = 0 := by
  rw [burden, found]
  exact if_neg (fun weighs => Bool.false_ne_true (weighs.2.1.symm.trans gone))

theorem burden_some (before : StreamCounts) {endpoint : CountedEndpoint}
    (found : before.endpoints.find id = some endpoint) (here : endpoint.gone = false) (free : before.setting.map (·.endpoint) ≠ some id) (thread : Nat) :
    before.burden topicWeight thread id =
      if endpoint.mType = .sub ∧ before.threadOf endpoint = some thread then
        topicWeight endpoint.mTopic else 0 := by
  rw [burden, found]
  simp only [Weighs, here, free, ne_eq, not_false_eq_true, true_and]

/-- What an endpoint weighs is told by its traits, by whether its stream is being set, and by the
thread of its stream. -/
theorem burden_same (before after : StreamCounts)
    (traits : (after.endpoints.find id).map CountedEndpoint.traits =
      (before.endpoints.find id).map CountedEndpoint.traits)
    (setting : after.setting.map (·.endpoint) = some id ↔ before.setting.map (·.endpoint) = some id)
    (threads : ∀ endpoint, before.endpoints.find id = some endpoint → endpoint.gone = false →
      after.threadOf endpoint = before.threadOf endpoint) (thread : Nat) :
    after.burden topicWeight thread id = before.burden topicWeight thread id := by
  cases found : before.endpoints.find id with
  | none =>
      rw [found, Option.map_none, Option.map_eq_none_iff] at traits
      rw [burden_absent found, burden_absent traits]
  | some endpoint =>
      rw [found, Option.map_some, Option.map_eq_some_iff] at traits
      obtain ⟨endpoint', found', same⟩ := traits
      simp only [CountedEndpoint.traits, Prod.mk.injEq] at same
      obtain ⟨kind, topic, gone, stream⟩ := same
      cases away : endpoint.gone with
      | true => rw [burden_gone found away, burden_gone found' (gone.trans away)]
      | false =>
          have at_thread : after.threadOf endpoint' = before.threadOf endpoint := by
            rw [← threads endpoint found away, threadOf, threadOf, stream]
          simp only [burden, found, found', Weighs, kind, topic, gone, away, at_thread, ne_eq,
            setting]

end Burden

section Sums

/-- The sum is as before, when what is new weighs nothing. -/
theorem weightOn_same (fresh : before.fresh ≤ after.fresh) {thread : Nat}
    (old : ∀ id < before.fresh,
      after.burden topicWeight thread id = before.burden topicWeight thread id)
    (new : ∀ id, before.fresh ≤ id → after.burden topicWeight thread id = 0) :
    after.weightOn topicWeight thread = before.weightOn topicWeight thread := by
  have grows : Finset.range before.fresh ⊆ Finset.range after.fresh :=
    Finset.range_subset_range.mpr fresh
  rw [weightOn, ← Finset.sum_subset grows]
  · exact Finset.sum_congr rfl (fun id inside => old id (Finset.mem_range.mp inside))
  · intro id _ outside
    exact new id (Nat.le_of_not_lt (fun small => outside (Finset.mem_range.mpr small)))

/-- The sum changes by what one endpoint does. -/
theorem weightOn_change (before after : StreamCounts) (fresh : after.fresh = before.fresh) (small : id < before.fresh)
    {thread : Nat} {change : UInt32}
    (own : after.burden topicWeight thread id = before.burden topicWeight thread id + change)
    (others : ∀ other, other ≠ id →
      after.burden topicWeight thread other = before.burden topicWeight thread other) :
    after.weightOn topicWeight thread = before.weightOn topicWeight thread + change := by
  have inside := Finset.mem_range.mpr small
  rw [weightOn, weightOn, fresh, ← Finset.sum_erase_add _ _ inside, own,
    ← Finset.sum_erase_add _ (before.burden topicWeight thread) inside, ← add_assoc]
  congr 2
  exact Finset.sum_congr rfl (fun other apart => others other (Finset.ne_of_mem_erase apart))

end Sums

/-- A step that has nothing to do with weights: it may change the flags of endpoints, what is
on a stream, and make something new. -/
structure Unmoved (before after : StreamCounts) : Prop where
  fresh : before.fresh ≤ after.fresh
  traits : ∀ id < before.fresh, before.setting.map (·.endpoint) ≠ some id →
    (after.endpoints.find id).map CountedEndpoint.traits =
      (before.endpoints.find id).map CountedEndpoint.traits
  setting : ∀ id < before.fresh, after.setting.map (·.endpoint) = some id ↔
    before.setting.map (·.endpoint) = some id
  threads : ∀ id endpoint, before.endpoints.find id = some endpoint → endpoint.gone = false →
    after.threadOf endpoint = before.threadOf endpoint
  new : ∀ id, before.fresh ≤ id → after.endpoints.find id = none ∨
    after.setting.map (·.endpoint) = some id

theorem Unmoved.weightOn (unmoved : Unmoved before after) (thread : Nat) :
    after.weightOn topicWeight thread = before.weightOn topicWeight thread := by
  refine weightOn_same unmoved.fresh (fun id small => ?_) (fun id large => ?_)
  · by_cases held : before.setting.map (·.endpoint) = some id
    · rw [burden_held held, burden_held ((unmoved.setting id small).mpr held)]
    · exact burden_same before after (unmoved.traits id small held) (unmoved.setting id small)
        (unmoved.threads id) thread
  · rcases unmoved.new id large with absent | held
    · exact burden_absent absent thread
    · exact burden_held held thread

theorem absent_of_fresh (id : EndpointId)
    (known : ∀ id endpoint, before.endpoints.find id = some endpoint → id < before.fresh)
    (large : before.fresh ≤ id) : before.endpoints.find id = none := by
  cases found : before.endpoints.find id with
  | none => rfl
  | some endpoint => exact absurd (known id endpoint found) (Nat.not_lt.mpr large)

/-- Endpoints change in their flags and nodes, and streams in what is on them. -/
theorem Unmoved.of_same (fresh : before.fresh ≤ after.fresh)
    (traits : ∀ id, (after.endpoints.find id).map CountedEndpoint.traits =
      (before.endpoints.find id).map CountedEndpoint.traits)
    (setting : after.setting.map (·.endpoint) = before.setting.map (·.endpoint))
    (threads : ∀ stream, (after.streams.find stream).map (·.mThread) =
      (before.streams.find stream).map (·.mThread))
    (known : ∀ id endpoint, before.endpoints.find id = some endpoint → id < before.fresh) :
    Unmoved before after where
  fresh := fresh
  traits id _ _ := traits id
  setting id _ := by rw [setting]
  threads id endpoint _ _ := by
    simp only [threadOf, threads]
  new id large := by
    have same := traits id
    rw [absent_of_fresh id known large, Option.map_none, Option.map_eq_none_iff] at same
    exact .inl same

theorem traits_set {endpoint endpoint' : CountedEndpoint}
    (found : before.endpoints.find id = some endpoint) (same : endpoint'.traits = endpoint.traits)
    (other : EndpointId) :
    ((before.endpoints.set id endpoint').find other).map CountedEndpoint.traits =
      (before.endpoints.find other).map CountedEndpoint.traits := by
  rw [RbTree.find_set]
  split
  · rename_i own
    rw [own, found, Option.map_some, Option.map_some, same]
  · rfl

theorem threads_set {stream : StreamId} {tstream tstream' : TportStream TopicType}
    (lookup : before.streams.find stream = some tstream)
    (same : tstream'.mThread = tstream.mThread) (other : StreamId) :
    ((before.streams.set stream tstream').find other).map (·.mThread) =
      (before.streams.find other).map (·.mThread) := by
  rw [RbTree.find_set]
  split
  · rename_i own
    rw [own, lookup, Option.map_some, Option.map_some, same]
  · rfl

section Steps

variable {state next : StreamCounts} (steady : Steady state)
include steady

theorem Steady.small {endpoint : CountedEndpoint} (id : EndpointId)
    (found : state.endpoints.find id = some endpoint) : id < state.fresh :=
  (steady.freshEndpoints id endpoint found).1

theorem Steady.absent {id : EndpointId} (large : state.fresh ≤ id) :
    state.endpoints.find id = none :=
  absent_of_fresh id (fun id _ => steady.small id) large

/-- An endpoint that was not destroyed has not been removed. -/
theorem Steady.here {endpoint : CountedEndpoint} (found : state.endpoints.find id = some endpoint)
    (alive : endpoint.mDestroyed = false) : endpoint.gone = false := by
  cases gone : endpoint.gone with
  | false => rfl
  | true =>
      have destroyed := ((steady.due id endpoint found).gone gone).2.1
      rw [alive] at destroyed
      cases destroyed

/-- Only the steps that are left have changed. -/
theorem Steady.unmoved_work (work : List (Nat × ThreadStep)) (completing : List (StreamId × EndpointId)) :
    Unmoved state { state with work := work, completing := completing } :=
  .of_same (Nat.le_refl _) (fun _ => rfl) rfl (fun _ => rfl) (fun id _ => steady.small id)

theorem Steady.unmoved_create (mType : TopicType) (mTopic : CString) :
    Unmoved state (state.create mType mTopic) := by
  unfold StreamCounts.create
  split
  · rename_i idle
    have others : ∀ id < state.fresh, (state.endpoints.set state.fresh
        ⟨mType, mTopic, false, false, false, none, none, false, false⟩).find id =
          state.endpoints.find id :=
      fun id small => (RbTree.find_set ..).trans (if_neg (Nat.ne_of_lt small))
    refine ⟨Nat.le_succ _, fun id small _ => by rw [others id small], fun id small => ?_,
      fun _ _ _ _ => rfl, fun id large => ?_⟩
    · rw [idle]
      simp [SetStream.endpoint, (Nat.ne_of_lt small).symm]
    · rcases Nat.lt_or_eq_of_le large with beyond | rfl
      · refine .inl ((RbTree.find_set ..).trans ?_)
        rw [if_neg (Nat.ne_of_gt beyond), steady.absent large]
      · exact .inr rfl
  · exact .of_same (Nat.le_refl _) (fun _ => rfl) rfl (fun _ => rfl) (fun id _ => steady.small id)

theorem Steady.unmoved_found {stream : StreamId} (ran : state.found stream = .ok next) :
    Unmoved state next := by
  have stays : Unmoved state state := steady.unmoved_work state.work state.completing
  unfold StreamCounts.found at ran
  split at ran
  · rename_i id held
    obtain ⟨endpoint, _, ran⟩ := bind_ok ran
    split at ran
    · cases ran
      exact stays
    · split at ran
      · cases ran
        exact .of_same (Nat.le_refl _) (fun _ => rfl) (by rw [held]; rfl) (fun _ => rfl)
          (fun id _ => steady.small id)
      · cases ran
        exact stays
  · cases ran
    exact stays

theorem Steady.unmoved_addStream {thread : Nat} (ran : state.addStream thread = .ok next) :
    Unmoved state next := by
  unfold StreamCounts.addStream at ran
  split at ran
  · rename_i id held
    obtain ⟨endpoint, _, ran⟩ := bind_ok ran
    cases ran
    refine ⟨Nat.le_succ _, fun _ _ _ => rfl, fun _ _ => by rw [held]; rfl, ?_, fun id large => ?_⟩
    · intro other endpoint' found _
      cases given : endpoint'.mTportStream with
      | none => simp only [threadOf, given, Option.bind_none]
      | some stream =>
          have old := (steady.freshEndpoints other endpoint' found).2 stream given
          simp only [threadOf, given, Option.bind_some, RbTree.find_set, if_neg (Nat.ne_of_lt old)]
    · exact .inl (steady.absent large)
  · cases ran
    exact steady.unmoved_work state.work state.completing

theorem Steady.unmoved_completed {stream : StreamId} {error : Bool}
    (ran : state.completed stream error = .ok next) : Unmoved state next := by
  unfold StreamCounts.completed at ran
  split at ran
  · cases ran
    exact steady.unmoved_work state.work state.completing
  · obtain ⟨tstream, _, ran⟩ := bind_ok ran
    cases ran
    exact steady.unmoved_work ..

theorem Steady.unmoved_destroy {id : EndpointId} (ran : state.destroy id = .ok next) :
    Unmoved state next := by
  unfold StreamCounts.destroy at ran
  split at ran
  · cases ran
    exact steady.unmoved_work state.work state.completing
  · rename_i endpoint found
    split at ran
    · cases ran
      exact steady.unmoved_work state.work state.completing
    · obtain ⟨stream, _, ran⟩ := bind_ok ran
      obtain ⟨tstream, _, ran⟩ := bind_ok ran
      cases ran
      exact .of_same (Nat.le_refl _) (traits_set found rfl) rfl (fun _ => rfl)
        (fun id _ => steady.small id)

/-- The steps of `SetStream` up to the last one. -/
theorem Steady.unmoved_setStream (more : ∀ id, state.setting ≠ some (.unlock id))
    (ran : state.setStream = .ok next) : Unmoved state next := by
  unfold StreamCounts.setStream at ran
  split at ran
  · cases ran
    exact steady.unmoved_work state.work state.completing
  · cases ran
    exact steady.unmoved_work state.work state.completing
  · rename_i id stream held
    obtain ⟨tstream, _, ran⟩ := bind_ok ran
    cases ran
    exact .of_same (Nat.le_refl _) (fun _ => rfl) (by rw [held]; rfl) (fun _ => rfl)
      (fun id _ => steady.small id)
  · rename_i id stream held
    obtain ⟨endpoint, found, ran⟩ := bind_ok ran
    cases ran
    have found := Heap.find_of_read found
    have others : ∀ other, other ≠ id → (state.endpoints.set id
        { endpoint with mTportStream := some stream }).find other = state.endpoints.find other :=
      fun other apart => (RbTree.find_set ..).trans (if_neg apart)
    -- The one that is given its stream is held on.
    refine ⟨Nat.le_refl _, fun other _ free => ?_, fun _ _ => by rw [held]; rfl,
      fun _ _ _ _ => rfl, fun other large => .inl ?_⟩
    · rw [others other (fun same => free (by rw [held, same]; rfl))]
    · have apart : other ≠ id := Nat.ne_of_gt ((steady.small id found).trans_le large)
      exact (others other apart).trans (steady.absent large)
  · rename_i id stream held
    obtain ⟨tstream, lookup, ran⟩ := bind_ok ran
    cases ran
    exact .of_same (Nat.le_refl _) (fun _ => rfl) (by rw [held]; rfl)
      (threads_set (Heap.find_of_read lookup) rfl) (fun id _ => steady.small id)
  · rename_i id held
    exact absurd held (more id)

end Steps

section Events

variable {state next : StreamCounts} {thread : Nat}
  (known : ∀ id endpoint, state.endpoints.find id = some endpoint → id < state.fresh)
include known

theorem unmoved_attach (ran : state.attach thread id = .ok next) : Unmoved state next := by
  unfold attach at ran
  obtain ⟨endpoint, found, ran⟩ := bind_ok ran
  obtain ⟨stream, _, ran⟩ := bind_ok ran
  obtain ⟨tstream, lookup, ran⟩ := bind_ok ran
  cases ran
  refine .of_same (Nat.le_succ _) (traits_set (Heap.find_of_read found) rfl) rfl
    (threads_set (Heap.find_of_read lookup) ?_) known
  unfold TportStream.ensureTopic
  split <;> rfl

theorem unmoved_unhold (ran : state.unhold id = .ok next) : Unmoved state next := by
  unfold unhold at ran
  obtain ⟨endpoint, found, ran⟩ := bind_ok ran
  obtain ⟨stream, _, ran⟩ := bind_ok ran
  obtain ⟨tstream, lookup, ran⟩ := bind_ok ran
  cases ran
  exact .of_same (Nat.le_refl _) (traits_set (Heap.find_of_read found) rfl) rfl
    (threads_set (Heap.find_of_read lookup) rfl) known

theorem unmoved_complete {error : Bool} (ran : state.complete thread id error = .ok next) :
    Unmoved state next := by
  unfold complete at ran
  obtain ⟨endpoint, _, ran⟩ := bind_ok ran
  obtain ⟨stream, _, ran⟩ := bind_ok ran
  obtain ⟨tstream, lookup, ran⟩ := bind_ok ran
  split at ran
  · cases ran
    exact .of_same (Nat.le_refl _) (fun _ => rfl) rfl (fun _ => rfl) known
  · cases ran
    exact .of_same (Nat.le_refl _) (fun _ => rfl) rfl
      (threads_set (Heap.find_of_read lookup) rfl) known

/-- A flag of an endpoint is set. -/
theorem unmoved_flag {endpoint : CountedEndpoint}
    (found : state.endpoints.find id = some endpoint) (endpoint' : CountedEndpoint) (same : endpoint'.traits = endpoint.traits) :
    Unmoved state { state with endpoints := state.endpoints.set id endpoint' } :=
  .of_same (Nat.le_refl _) (traits_set found same) rfl (fun _ => rfl) known

/-- A stream that is freed is that of nobody who has not been removed. -/
theorem unmoved_removeStream {stream : StreamId} {out : List FreedStream}
    (ran : perform thread (.removeStream stream) state = .ok (next, out)) (after : Steady next) :
    Unmoved state next := by
  unfold perform at ran
  obtain ⟨tstream, _, ran⟩ := bind_ok ran
  split at ran
  · cases ran
    refine ⟨Nat.le_refl _, fun _ _ _ => rfl, fun _ _ => Iff.rfl, ?_, ?_⟩
    · intro id endpoint found here
      cases given : endpoint.mTportStream with
      | none => simp only [threadOf, given, Option.bind_none]
      | some other =>
          obtain ⟨tstream', lookup, _⟩ := after.given id endpoint other found given (.inr here)
          have apart := (RbTree.find_erase_some lookup).1
          simp only [threadOf, given, Option.bind_some, RbTree.find_erase, if_neg apart]
    · exact fun id large => .inl (absent_of_fresh id known large)
  · cases ran
    exact .of_same (Nat.le_refl _) (fun _ => rfl) rfl (fun _ => rfl) known

omit known in
/-- A removal that is carried out changes the endpoint's stream, apart from its thread, and
marks the endpoint. -/
theorem detach_inv {endpoint : CountedEndpoint} (ran : state.detach thread id endpoint = .ok next) :
    (∀ stream, (next.streams.find stream).map (·.mThread) =
      (state.streams.find stream).map (·.mThread)) ∧
    next.endpoints = state.endpoints.set id { endpoint with gone := true } ∧
    next.setting = state.setting ∧ next.fresh = state.fresh := by
  unfold detach at ran
  obtain ⟨stream, _, ran⟩ := bind_ok ran
  obtain ⟨tstream, lookup, ran⟩ := bind_ok ran
  obtain ⟨address, _, ran⟩ := bind_ok ran
  obtain ⟨ttopic, _, ran⟩ := bind_ok ran
  have lookup := Heap.find_of_read lookup
  split at ran
  · cases ran
  · simp only at ran
    split at ran
    · obtain ⟨⟨empty, tstream'⟩, removed, ran⟩ := bind_ok ran
      cases ran
      unfold TportStream.removeTopic at removed
      simp only at removed
      split at removed
      · cases removed
      · cases removed
        exact ⟨threads_set lookup rfl, rfl, rfl, rfl⟩
    · cases ran
      exact ⟨threads_set lookup rfl, rfl, rfl, rfl⟩

variable (topicWeight) in
/-- A removal takes away what the endpoint weighs. -/
theorem weightOn_detach {endpoint : CountedEndpoint}
    (found : state.endpoints.find id = some endpoint) (here : endpoint.gone = false)
    (free : state.setting.map (·.endpoint) ≠ some id)
    (ran : state.detach thread id endpoint = .ok next) (other : Nat) :
    next.weightOn topicWeight other = state.weightOn topicWeight other +
      -(if endpoint.mType = .sub ∧ state.threadOf endpoint = some other then
        topicWeight endpoint.mTopic else 0) := by
  obtain ⟨threads, endpoints, setting, fresh⟩ := detach_inv ran
  refine weightOn_change state next fresh (known id endpoint found) ?_ ?_
  · have gone : next.endpoints.find id = some { endpoint with gone := true } := by
      rw [endpoints, RbTree.find_set_self]
    rw [burden_gone gone rfl, burden_some state found here free, add_neg_cancel]
  · intro another apart
    refine burden_same state next ?_ (by rw [setting]) (fun _ _ _ => ?_) other
    · rw [endpoints, RbTree.find_set, if_neg apart]
    · simp only [threadOf, threads]

end Events

/-- A removal that a thread is about to carry out is that of an endpoint which is still there,
and which has been returned to the user. -/
theorem Steady.leaving {state : StreamCounts} (steady : Steady state) {thread : Nat}
    {step : ThreadStep} (member : (thread, step) ∈ state.work) {endpoint : CountedEndpoint}
    (found : state.endpoints.find id = some endpoint) (removes : step.Removes id endpoint) :
    endpoint.gone = false ∧ state.setting.map (·.endpoint) ≠ some id := by
  have due := steady.due id endpoint found
  have some_ : ∀ p : ThreadStep → Bool, p step = true → 0 < state.pending p :=
    fun p holds => List.countP_pos_iff.mpr ⟨(thread, step), member, holds⟩
  have owed : (0 < state.pending (· = .remove id)) ∨
      (endpoint.mRemoved = true ∧ 0 < state.pending (·.settles id)) := by
    cases step with
    | remove other => exact .inl (some_ _ (by simp [removes.1]))
    | settle other =>
        exact .inr ⟨removes.2, some_ _ (by simp [ThreadStep.settles, removes.1])⟩
    | finish other =>
        exact .inr ⟨removes.2.1, some_ _ (by simp [ThreadStep.settles, removes.1])⟩
    | _ => exact removes.elim
  have here : endpoint.gone = false := by
    cases gone : endpoint.gone with
    | false => rfl
    | true =>
        obtain ⟨_, _, none_left, settled⟩ := due.gone gone
        rcases owed with left | ⟨marked, left⟩
        · omega
        · have := settled marked
          omega
  have destroyed : endpoint.mDestroyed = true := by
    have total := due.removes here
    cases alive : endpoint.mDestroyed with
    | true => rfl
    | false =>
        rw [alive, Bool.toNat_false] at total
        rcases owed with left | ⟨marked, _⟩
        · omega
        · rw [marked, Bool.toNat_true] at total
          omega
  refine ⟨here, fun held => ?_⟩
  obtain ⟨setting, at_setting, own⟩ := Option.map_eq_some_iff.mp held
  have returned := steady.toSound.returned found at_setting own
  rw [destroyed] at returned
  cases returned

end StreamCounts

namespace SubWeights

open StreamCounts

variable {topicWeight : CString → UInt32} {state next : SubWeights} {thread : Nat}
  {id : EndpointId}

/-- Each thread's weight is the sum over the subscriptions on its streams. -/
def Weighed (topicWeight : CString → UInt32) (state : SubWeights) : Prop :=
  ∀ thread, state.mWeights thread = state.counts.weightOn topicWeight thread

section Reweigh

variable (topicWeight) (thread) (endpoint : CountedEndpoint) (change : UInt32 → UInt32)
  (state : SubWeights)

@[simp] theorem reweigh_counts :
    (state.reweigh topicWeight thread endpoint change).counts = state.counts := by
  unfold reweigh
  split <;> rfl

theorem reweigh_mWeights (other : Nat) :
    (state.reweigh topicWeight thread endpoint change).mWeights other = state.mWeights other +
      if endpoint.mType = .sub ∧ thread = other then change (topicWeight endpoint.mTopic) else 0 := by
  unfold reweigh
  cases kind : endpoint.mType with
  | pub => simp
  | sub =>
      by_cases own : thread = other
      · subst own
        simp [adjustWeight]
      · simp [adjustWeight, own, Function.update_of_ne (Ne.symm own)]

end Reweigh

theorem detach_counts (endpoint : CountedEndpoint) :
    (state.detach topicWeight thread id endpoint).map (·.counts) =
      state.counts.detach thread id endpoint := by
  unfold SubWeights.detach
  cases first : notNull endpoint.mTportStream with
  | error fault => simp only [StreamCounts.detach, first, bind, Except.bind, Except.map]
  | ok stream =>
      cases second : state.counts.streams.read stream with
      | error fault => simp only [StreamCounts.detach, first, second, bind, Except.bind, Except.map]
      | ok tstream =>
          simp only [second, bind, Except.bind, reweigh_counts]
          cases state.counts.detach thread id endpoint <;> rfl

theorem removeEventCb_counts (topicWeight : CString → UInt32) (thread : Nat) (id : EndpointId)
    (state : SubWeights) : (state.removeEventCb topicWeight thread id).map (·.counts) =
    state.counts.removeEventCb thread id := by
  unfold SubWeights.removeEventCb StreamCounts.removeEventCb
  cases state.counts.endpoints.read id with
  | error fault => rfl
  | ok endpoint =>
      simp only [bind, Except.bind]
      split
      · rfl
      · exact detach_counts endpoint

theorem Weighed.unmoved (weighed : Weighed topicWeight state) {counts : StreamCounts}
    (unmoved : Unmoved state.counts counts) : Weighed topicWeight { state with counts := counts } :=
  fun thread => (weighed thread).trans (unmoved.weightOn thread).symm

/-- A step of the streams that has nothing to do with weights. -/
theorem Weighed.plain (weighed : Weighed topicWeight state)
    {inner : Step Fault StreamCounts FreedStream} {out : List FreedStream}
    (ran : plain inner state = .ok (next, out))
    (unmoved : ∀ counts, inner state.counts = .ok (counts, out) →
      next = { state with counts := counts } → Unmoved state.counts counts) :
    Weighed topicWeight next := by
  unfold SubWeights.plain at ran
  cases result : inner state.counts with
  | error fault =>
      rw [result] at ran
      cases ran
  | ok pair =>
      rw [result] at ran
      cases ran
      exact weighed.unmoved (unmoved pair.1 result rfl)

section Removals

variable (weighed : Weighed topicWeight state)
  (known : ∀ id endpoint, state.counts.endpoints.find id = some endpoint → id < state.counts.fresh)
include weighed known

theorem Weighed.detach {endpoint : CountedEndpoint}
    (found : state.counts.endpoints.find id = some endpoint) (here : endpoint.gone = false)
    (free : state.counts.setting.map (·.endpoint) ≠ some id)
    (ran : state.detach topicWeight thread id endpoint = .ok next) : Weighed topicWeight next := by
  unfold SubWeights.detach at ran
  obtain ⟨stream, given, ran⟩ := bind_ok ran
  obtain ⟨tstream, lookup, ran⟩ := bind_ok ran
  obtain ⟨counts, detached, ran⟩ := bind_ok ran
  cases ran
  rw [reweigh_counts] at detached
  have at_thread := threadOf_of_read given lookup
  intro other
  have after := weightOn_detach topicWeight known found here free detached other
  simp only [reweigh_mWeights, after, at_thread, weighed other, Option.some.injEq]
  split <;> simp

theorem Weighed.removeEventCb
    (leaves : ∀ endpoint, state.counts.endpoints.find id = some endpoint → endpoint.mReady = true →
      endpoint.gone = false ∧ state.counts.setting.map (·.endpoint) ≠ some id)
    (ran : state.removeEventCb topicWeight thread id = .ok next) : Weighed topicWeight next := by
  unfold SubWeights.removeEventCb at ran
  obtain ⟨endpoint, found, ran⟩ := bind_ok ran
  have found := Heap.find_of_read found
  split at ran
  · cases ran
    exact weighed.unmoved (unmoved_flag known found _ rfl)
  · rename_i ready
    obtain ⟨here, free⟩ := leaves endpoint found (by simpa using ready)
    exact weighed.detach known found here free ran

/-- A step of an event thread, from where the steps that are left stand as they are to. -/
theorem Weighed.perform {step : ThreadStep} {out : List FreedStream}
    (leaves : ∀ id endpoint, state.counts.endpoints.find id = some endpoint →
      step.Removes id endpoint →
        endpoint.gone = false ∧ state.counts.setting.map (·.endpoint) ≠ some id)
    (ran : perform topicWeight thread step state = .ok (next, out)) (after : Steady next.counts) :
    Weighed topicWeight next := by
  cases step with
  | add id =>
      exact weighed.plain ran (fun counts inner _ => unmoved_attach known (silent_ok inner).1)
  | unhold id =>
      exact weighed.plain ran (fun counts inner _ => unmoved_unhold known (silent_ok inner).1)
  | removeStream stream =>
      apply weighed.plain ran
      intro counts inner same
      subst same
      exact unmoved_removeStream known inner after
  | complete handle id error =>
      exact weighed.plain ran (fun counts inner _ => unmoved_complete known (silent_ok inner).1)
  | remove id =>
      refine weighed.removeEventCb known (fun endpoint found ready => ?_) (silent_ok ran).1
      exact leaves id endpoint found ⟨rfl, ready⟩
  | settle id =>
      obtain ⟨endpoint, found, ran⟩ := bind_ok ran
      have found := Heap.find_of_read found
      have flagged := unmoved_flag known found { endpoint with mReady := true } rfl
      split at ran
      · rename_i marked
        refine Weighed.removeEventCb (weighed.unmoved flagged) ?_ ?_ (silent_ok ran).1
        · exact RbTree.forall_set (known id endpoint found) (fun other endpoint' _ =>
            known other endpoint')
        · intro endpoint' found' _
          have same := (RbTree.find_set_self ..).symm.trans found'
          cases same
          exact leaves id endpoint found ⟨rfl, marked⟩
      · cases ran
        exact weighed.unmoved flagged
  | finish id =>
      obtain ⟨endpoint, found, ran⟩ := bind_ok ran
      have found := Heap.find_of_read found
      split at ran
      · rename_i marked
        refine weighed.removeEventCb known (fun endpoint' found' ready => ?_) (silent_ok ran).1
        obtain rfl := Option.some.inj (found.symm.trans found')
        exact leaves id endpoint found ⟨rfl, marked, ready⟩
      · cases ran
        exact weighed

end Removals

/-- The last step of `SetStream` gives the subscription its weight. -/
theorem Weighed.unlock (weighed : Weighed topicWeight state) (steady : Steady state.counts)
    (held : state.counts.setting = some (.unlock id))
    (ran : state.setStream topicWeight = .ok next) : Weighed topicWeight next := by
  unfold SubWeights.setStream at ran
  rw [held] at ran
  obtain ⟨endpoint, found, ran⟩ := bind_ok ran
  obtain ⟨stream, given, ran⟩ := bind_ok ran
  obtain ⟨tstream, lookup, ran⟩ := bind_ok ran
  have found := Heap.find_of_read found
  have here := steady.here found (steady.toSound.returned found held rfl)
  have at_thread := threadOf_of_read given lookup
  simp only [reweigh_counts, StreamCounts.setStream, held] at ran
  cases ran
  intro other
  have after : StreamCounts.weightOn topicWeight { state.counts with setting := none } other =
      state.counts.weightOn topicWeight other +
        if endpoint.mType = .sub ∧ tstream.mThread = other then
          topicWeight endpoint.mTopic else 0 := by
    refine weightOn_change state.counts { state.counts with setting := none } rfl
      (steady.small id found) ?_ ?_
    · have idle : state.counts.burden topicWeight other id = 0 :=
        burden_held (by rw [held]; rfl) other
      rw [idle, zero_add,
        burden_some { state.counts with setting := none } found here (by simp)]
      have same : threadOf { state.counts with setting := none } endpoint =
          some tstream.mThread := at_thread
      simp only [same, Option.some.injEq]
    · intro another apart
      refine burden_same state.counts { state.counts with setting := none } rfl ?_
        (fun _ _ _ => rfl) other
      rw [held]
      simp [SetStream.endpoint, Ne.symm apart]
  simp only [reweigh_mWeights, after, weighed other]

theorem plain_counts (step : Step Fault StreamCounts FreedStream) :
    (plain step state).map (fun result => (result.1.counts, result.2)) = step state.counts := by
  unfold plain
  cases step state.counts <;> rfl

theorem silent_counts {inner : Except Fault SubWeights} {outer : Except Fault StreamCounts}
    (same : inner.map (·.counts) = outer) :
    (inner.map (·, ([] : List FreedStream))).map (fun result => (result.1.counts, result.2)) =
      outer.map (·, []) := by
  subst same
  cases inner <;> rfl

theorem perform_counts (step : ThreadStep) :
    (perform topicWeight thread step state).map (fun result => (result.1.counts, result.2)) =
      StreamCounts.perform thread step state.counts := by
  cases step with
  | remove id =>
      unfold SubWeights.perform StreamCounts.perform
      dsimp only
      exact silent_counts (removeEventCb_counts topicWeight thread id _)
  | settle id =>
      unfold SubWeights.perform StreamCounts.perform
      dsimp only
      cases state.counts.endpoints.read id with
      | error fault => rfl
      | ok endpoint =>
          simp only [bind, Except.bind]
          split
          · exact silent_counts (removeEventCb_counts topicWeight thread id _)
          · rfl
  | finish id =>
      unfold SubWeights.perform StreamCounts.perform
      dsimp only
      cases state.counts.endpoints.read id with
      | error fault => rfl
      | ok endpoint =>
          simp only [bind, Except.bind]
          split
          · exact silent_counts (removeEventCb_counts topicWeight thread id _)
          · rfl
  | _ => exact plain_counts _

theorem event_counts : (event topicWeight thread state).map
    (fun result => (result.1.counts, result.2)) = StreamCounts.event thread state.counts := by
  unfold SubWeights.event StreamCounts.event
  cases state.counts.next thread with
  | none => rfl
  | some step =>
      simp only
      split
      · rfl
      · exact perform_counts step

variable (topicWeight) in
theorem setStream_counts (steady : Steady state.counts) :
    (state.setStream topicWeight).map (·.counts) = state.counts.setStream := by
  unfold SubWeights.setStream
  split
  · rename_i id held
    obtain ⟨endpoint, found, returned, given⟩ := steady.phase _ held
    have found : state.counts.endpoints.find id = some endpoint := found
    obtain ⟨stream, given⟩ := Option.ne_none_iff_exists'.mp given
    have here := steady.here found returned
    obtain ⟨tstream, lookup, _⟩ := steady.given id endpoint stream found given (.inr here)
    simp only [Heap.read_some found, given, notNull, Heap.read_some lookup, bind, Except.bind,
      reweigh_counts]
    cases state.counts.setStream <;> rfl
  · cases state.counts.setStream <;> rfl

variable (topicWeight) in
/-- Without the weights a step is one of the streams. -/
theorem step_counts (steady : Steady state.counts) (action : Action) :
    (step topicWeight action state).map (fun result => (result.1.counts, result.2)) =
      StreamCounts.step action state.counts := by
  cases action with
  | setStream =>
      unfold SubWeights.step StreamCounts.step
      dsimp only
      exact silent_counts (setStream_counts topicWeight steady)
  | event at_thread => exact event_counts
  | _ => exact plain_counts _

theorem Weighed.event (weighed : Weighed topicWeight state) (steady : Steady state.counts)
    {out : List FreedStream} (ran : event topicWeight thread state = .ok (next, out))
    (after : Steady next.counts) : Weighed topicWeight next := by
  unfold SubWeights.event at ran
  split at ran
  · cases ran
    exact weighed
  · rename_i first found
    split at ran
    · cases ran
      exact weighed
    · have member : (thread, first) ∈ state.counts.work := by
        obtain ⟨entry, at_entry, own⟩ := Option.map_eq_some_iff.mp found
        have inside := List.mem_of_find?_eq_some at_entry
        have at_thread := List.find?_some at_entry
        simp only [decide_eq_true_eq] at at_thread
        rw [← at_thread, ← own]
        exact inside
      refine Weighed.perform (weighed.unmoved
        (steady.unmoved_work (state.counts.work.erase (thread, first)) state.counts.completing))
        (fun id _ => steady.small id) (fun id endpoint known removes => ?_) ran after
      exact steady.leaving member known removes

/-- Each step keeps the sums, or stops at the assertion on a stream's count. -/
theorem Weighed.step (weighed : Weighed topicWeight state) (steady : Steady state.counts)
    (action : Action) : step topicWeight action state = .error .assertion ∨
      ∃ next out, step topicWeight action state = .ok (next, out) ∧ Steady next.counts ∧
        Weighed topicWeight next := by
  have counts := step_counts topicWeight steady action
  obtain ⟨goes, fails⟩ := steady.step action
  by_cases clear : state.counts.Clear action
  · obtain ⟨counts', out', ran', after, _⟩ := goes clear
    rw [ran'] at counts
    cases ran : SubWeights.step topicWeight action state with
    | error fault =>
        rw [ran] at counts
        cases counts
    | ok result =>
        obtain ⟨next, out⟩ := result
        rw [ran] at counts
        cases counts
        refine .inr ⟨next, out, rfl, after, ?_⟩
        cases action with
        | create mType mTopic =>
            apply weighed.plain ran
            intro counts inner _
            cases inner
            exact steady.unmoved_create mType mTopic
        | found stream =>
            exact weighed.plain ran (fun counts inner _ => steady.unmoved_found (silent_ok inner).1)
        | addStream at_thread =>
            exact weighed.plain ran (fun counts inner _ => steady.unmoved_addStream (silent_ok inner).1)
        | completed stream error =>
            exact weighed.plain ran (fun counts inner _ => steady.unmoved_completed (silent_ok inner).1)
        | destroy id =>
            exact weighed.plain ran (fun counts inner _ => steady.unmoved_destroy (silent_ok inner).1)
        | setStream =>
            have ran := (silent_ok ran).1
            by_cases last : ∃ id, state.counts.setting = some (.unlock id)
            · obtain ⟨id, held⟩ := last
              exact weighed.unlock steady held ran
            · unfold SubWeights.setStream at ran
              split at ran
              · rename_i id held
                exact absurd ⟨id, held⟩ last
              · obtain ⟨counts, inner, ran⟩ := bind_ok ran
                cases ran
                exact weighed.unmoved (steady.unmoved_setStream
                  (fun id held => last ⟨id, held⟩) inner)
        | event at_thread => exact weighed.event steady ran after
  · rw [fails clear] at counts
    cases ran : SubWeights.step topicWeight action state with
    | error fault =>
        rw [ran] at counts
        cases counts
        exact .inl rfl
    | ok result =>
        rw [ran] at counts
        cases counts

/-- When every subscription has been removed, no thread has any weight. -/
theorem Weighed.empty (weighed : Weighed topicWeight state)
    (gone : ∀ id endpoint, state.counts.endpoints.find id = some endpoint →
      endpoint.mType = .sub → endpoint.gone = true) (thread : Nat) : state.mWeights thread = 0 := by
  rw [weighed thread, weightOn]
  refine Finset.sum_eq_zero (fun id _ => ?_)
  cases found : state.counts.endpoints.find id with
  | none => exact burden_absent found thread
  | some endpoint =>
      rw [burden, found]
      refine if_neg (fun weighs => ?_)
      have away := gone id endpoint found weighs.1
      rw [weighs.2.1] at away
      cases away

theorem Weighed.run (weighed : Weighed topicWeight state) (steady : Steady state.counts)
    (actions : List Action) : run topicWeight actions state = .error .assertion ∨
      ∃ last out, run topicWeight actions state = .ok (last, out) ∧ Weighed topicWeight last := by
  induction actions generalizing state with
  | nil => exact .inr ⟨state, [], rfl, weighed⟩
  | cons action rest ih =>
      rcases weighed.step steady action with failed | ⟨next, out, ran, after, weighed'⟩
      · exact .inl (Step.andThen_error failed _)
      · rcases ih weighed' after with failed | ⟨last, more, ran', weighed''⟩
        · refine .inl ?_
          rw [SubWeights.run, List.map_cons, Step.all_cons, Step.andThen_ok ran]
          have failed' : Step.all (rest.map (SubWeights.step topicWeight)) next = _ := failed
          rw [failed']
        · exact .inr ⟨last, out ++ more, Step.andThen_ok_ok ran ran', weighed''⟩

theorem new_weighed (topicWeight : CString → UInt32) : Weighed topicWeight new := by
  intro thread
  rfl

/-- In every order of the steps of all threads, the weight of each thread is the sum over the
subscriptions on its streams, and it is zero when all of them have been removed, unless the
process has stopped at the assertion on a stream's count. -/
theorem run_weighed (topicWeight : CString → UInt32) (actions : List Action) :
    run topicWeight actions new = .error .assertion ∨
      ∃ last out, run topicWeight actions new = .ok (last, out) ∧
        (∀ thread, last.mWeights thread = last.counts.weightOn topicWeight thread) ∧
        ((∀ id endpoint, last.counts.endpoints.find id = some endpoint → endpoint.mType = .sub →
          endpoint.gone = true) → ∀ thread, last.mWeights thread = 0) := by
  rcases (new_weighed topicWeight).run new_steady actions with failed | ⟨last, out, ran, weighed⟩
  · exact .inl failed
  · exact .inr ⟨last, out, ran, weighed, weighed.empty⟩

end SubWeights

end Sbf
