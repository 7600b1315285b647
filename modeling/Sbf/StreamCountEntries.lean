import Sbf.StreamCountSteps

set_option autoImplicit false

/-! New endpoints and new streams: nothing that is left to do speaks of them. -/

namespace Sbf

open Octets

/-- Whose step it is. -/
def ThreadStep.endpoint : ThreadStep → Option EndpointId
  | add id | unhold id | remove id | complete _ id _ | settle id | finish id => some id
  | removeStream _ => none

namespace StreamCounts

theorem Serves.known {state : StreamCounts} {thread : Nat} {id : EndpointId} {stream : StreamId}
    (serves : state.Serves thread id stream) : (state.endpoints.find id).isSome = true := by
  obtain ⟨⟨endpoint, found, _⟩, _⟩ := serves
  exact Option.isSome_iff_exists.mpr ⟨endpoint, found⟩

theorem Owed.known {state : StreamCounts} {thread : Nat} {step : ThreadStep}
    (owed : state.Owed thread step) {id : EndpointId} (own : step.endpoint = some id) :
    (state.endpoints.find id).isSome = true := by
  cases step with
  | add other | unhold other | remove other =>
      cases own
      obtain ⟨stream, serves⟩ := owed
      exact serves.known
  | complete handle other error =>
      cases own
      exact Serves.known owed
  | removeStream stream => cases own
  | settle other =>
      cases own
      obtain ⟨endpoint, settles, _⟩ := owed
      exact Option.isSome_iff_exists.mpr ⟨endpoint, settles.1⟩
  | finish other =>
      cases own
      obtain ⟨endpoint, settles⟩ := owed
      exact Option.isSome_iff_exists.mpr ⟨endpoint, settles.1⟩

section Unused

variable {state : StreamCounts} (sound : Sound state)
include sound

/-- No step is left for an endpoint that is not there. -/
theorem Sound.no_steps {id : EndpointId} (absent : state.endpoints.find id = none)
    (p : ThreadStep → Bool) (own : ∀ step, p step = true → step.endpoint = some id) :
    state.pending p = 0 := by
  apply List.countP_eq_zero.mpr
  intro entry member counts
  have known := Owed.known (sound.entries entry member) (own entry.2 counts)
  rw [absent] at known
  cases known

theorem Sound.no_joins {id : EndpointId} (absent : state.endpoints.find id = none) :
    state.joins id = 0 := by
  rw [joins, sound.no_steps absent, Nat.zero_add]
  · apply List.countP_eq_zero.mpr
    intro entry member own
    obtain ⟨thread, serves⟩ := sound.creators entry.1 entry.2 member
    have known := serves.known
    rw [of_decide_eq_true own, absent] at known
    cases known
  · intro step joining
    cases step <;> simp_all [ThreadStep.joins, ThreadStep.endpoint]

theorem Sound.serves_small {thread : Nat} {id : EndpointId} {stream : StreamId}
    (serves : state.Serves thread id stream) : stream < state.fresh := by
  obtain ⟨⟨endpoint, found, given | storing⟩, _⟩ := serves
  · exact (sound.freshEndpoints id endpoint found).2 stream given
  · obtain ⟨_, _, _, _, tstream, lookup, _⟩ := sound.phase _ storing
    exact (sound.freshStreams stream tstream lookup).1

/-- Nor a completion for a stream that is not there. -/
theorem Sound.no_completions :
    state.completing.countP (·.1 = state.fresh) + state.pending (·.completes state.fresh) = 0 := by
  rw [Nat.add_eq_zero_iff]
  constructor
  · apply List.countP_eq_zero.mpr
    intro entry member own
    obtain ⟨thread, serves⟩ := sound.creators entry.1 entry.2 member
    exact absurd (of_decide_eq_true own) (Nat.ne_of_lt (sound.serves_small serves))
  · apply List.countP_eq_zero.mpr
    intro entry member completing
    have owed := sound.entries entry member
    generalize entry.2 = step at owed completing
    cases step with
    | complete handle id error =>
        exact absurd (of_decide_eq_true completing) (Nat.ne_of_lt (sound.serves_small owed))
    | _ => cases completing

theorem Sound.fresh_endpoint : state.endpoints.find state.fresh = none := by
  cases found : state.endpoints.find state.fresh with
  | none => rfl
  | some endpoint => exact absurd (sound.freshEndpoints _ _ found).1 (Nat.lt_irrefl _)

theorem Sound.fresh_stream : state.streams.find state.fresh = none := by
  cases found : state.streams.find state.fresh with
  | none => rfl
  | some tstream => exact absurd (sound.freshStreams _ _ found).1 (Nat.lt_irrefl _)

end Unused

/-- A new endpoint has no stream, and `SetStream` has the lock. -/
theorem Steady.create {state : StreamCounts} (steady : Steady state) (mType : TopicType)
    (mTopic : CString) : Steady (state.create mType mTopic) := by
  unfold StreamCounts.create
  split
  · rename_i idle
    have absent := steady.fresh_endpoint
    have unholding : ∀ step : ThreadStep, decide (step = .unhold state.fresh) = true →
        step.endpoint = some state.fresh := by
      intro step own
      rw [of_decide_eq_true own, ThreadStep.endpoint]
    have removing : ∀ step : ThreadStep, decide (step = .remove state.fresh) = true →
        step.endpoint = some state.fresh := by
      intro step own
      rw [of_decide_eq_true own, ThreadStep.endpoint]
    have settling : ∀ step : ThreadStep, step.settles state.fresh = true →
        step.endpoint = some state.fresh := by
      intro step own
      cases step <;> simp_all [ThreadStep.settles, ThreadStep.endpoint]
    have kept : ∀ {id endpoint}, state.endpoints.find id = some endpoint →
        (state.endpoints.set state.fresh
          ⟨mType, mTopic, false, false, false, none, none, false, false⟩).find id =
            some endpoint := by
      intro id endpoint found
      rw [RbTree.find_set, if_neg]
      · exact found
      · rintro rfl
        rw [absent] at found
        cases found
    have later : Later state { state with
        endpoints := state.endpoints.set state.fresh
          ⟨mType, mTopic, false, false, false, none, none, false, false⟩
        fresh := state.fresh + 1
        setting := some (.find state.fresh) } := by
      refine ⟨fun id endpoint found => ⟨endpoint, kept found, fun _ given => given, fun on => on⟩,
        fun stream _ tstream lookup => ⟨tstream, lookup, rfl, fun ready => ready⟩, ?_⟩
      intro id stream storing
      rw [idle] at storing
      cases storing
    refine ⟨?_, steady.leads⟩
    exact
      { steady.toSound with
        freshStreams := by
          intro id tstream lookup
          have small := steady.freshStreams id tstream lookup
          exact ⟨Nat.lt_succ_of_lt small.1, fun ttopic inside => Nat.lt_succ_of_lt (small.2 _ inside)⟩
        freshEndpoints := by
          apply RbTree.forall_set
          · exact ⟨Nat.lt_succ_self _, fun _ given => by cases given⟩
          · intro id endpoint _ found
            have small := steady.freshEndpoints id endpoint found
            exact ⟨Nat.lt_succ_of_lt small.1, fun stream given =>
              Nat.lt_succ_of_lt (small.2 stream given)⟩
        listed := by
          intro stream tstream lookup address name type id
          rw [steady.listed stream tstream lookup]
          by_cases own : id = state.fresh
          · subst own
            simp [absent]
          · simp only [RbTree.find_set, if_neg own]
        given := by
          intro id endpoint stream found given
          rcases RbTree.find_set_some found with ⟨rfl, rfl⟩ | ⟨_, old⟩
          · cases given
          · exact steady.given id endpoint stream old given
        streamless := by
          apply RbTree.forall_set
          · exact fun _ => ⟨rfl, _, rfl, rfl⟩
          · intro id endpoint _ found streamless
            obtain ⟨_, setting, held, _⟩ := steady.streamless id endpoint found streamless
            rw [idle] at held
            cases held
        counted := by
          intro stream tstream lookup
          have total := steady.counted stream tstream lookup
          have counts := RbTree.count_set state.endpoints (fun _ endpoint => endpoint.waits stream)
            state.fresh ⟨mType, mTopic, false, false, false, none, none, false, false⟩
          have no_wait : CountedEndpoint.waits stream
              ⟨mType, mTopic, false, false, false, none, none, false, false⟩ = false := by
            simp [CountedEndpoint.waits]
          rw [absent, Option.elim_none, no_wait] at counts
          simp only [owing, idle, waiting] at total ⊢
          rw [Nat.add_right_cancel counts]
          exact total
        due := by
          apply RbTree.forall_set
          · refine ⟨?_, ?_, ?_, fun _ => ?_, ?_, ?_, ?_⟩
            · exact (steady.no_joins absent).trans_le (Nat.zero_le 1)
            · exact steady.no_steps absent _ unholding
            · exact (steady.no_steps absent _ settling).trans_le (Nat.zero_le 1)
            · exact steady.no_steps absent _ removing
            all_goals
              intro not_yet
              cases not_yet
          · exact fun id endpoint _ => steady.due id endpoint
        creators := by
          intro stream id member
          obtain ⟨thread, serves⟩ := steady.creators stream id member
          exact ⟨thread, Serves.lasts later steady.toSound serves⟩
        entries := by
          intro entry member
          refine Owed.lasts later steady.toSound (steady.entries entry member) ?_
          exact fun freed freeing => steady.frees member freeing
        phase := by
          rintro _ ⟨⟩
          refine ⟨_, RbTree.find_set_self _ _ _, rfl, rfl, steady.no_joins absent⟩ }
  · exact steady

/-- A new stream is ready for nobody, until its creator's completion. -/
theorem Steady.addStream {state : StreamCounts} (steady : Steady state) (thread : Nat) :
    ∃ next, state.addStream thread = .ok next ∧ Steady next := by
  unfold StreamCounts.addStream
  split
  · rename_i id held
    obtain ⟨endpoint, at_id, returned, none_given, unqueued⟩ := steady.phase _ held
    simp only [SetStream.endpoint] at at_id
    have absent := steady.fresh_stream
    have kept : ∀ {stream : StreamId} {tstream made : TportStream TopicType},
        state.streams.find stream = some tstream →
          (state.streams.set state.fresh made).find stream = some tstream := by
      intro stream tstream made lookup
      rw [RbTree.find_set, if_neg]
      · exact lookup
      · rintro rfl
        rw [absent] at lookup
        cases lookup
    have later : Later state { state with
        streams := state.streams.set state.fresh ⟨thread, endpoint.mType, 0, false, []⟩
        fresh := state.fresh + 1
        completing := state.completing ++ [(state.fresh, id)]
        setting := some (.store id state.fresh) } := by
      refine ⟨fun other endpoint' old => ⟨endpoint', old, fun _ given => given, fun on => on⟩, ?_, ?_⟩
      · intro stream old tstream' found
        rcases RbTree.find_set_some found with ⟨rfl, _⟩ | ⟨_, lookup⟩
        · exact absurd old (Nat.lt_irrefl _)
        · exact ⟨tstream', lookup, rfl, fun ready => ready⟩
      · intro other stream storing
        rw [held] at storing
        cases storing
    have unlisted : ∀ other endpoint', state.endpoints.find other = some endpoint' →
        endpoint'.mTportStream ≠ some state.fresh := by
      intro other endpoint' found given
      exact absurd ((steady.freshEndpoints other endpoint' found).2 _ given) (Nat.lt_irrefl _)
    have no_wait : state.waiting state.fresh = 0 := by
      apply RbTree.count_eq_zero
      intro other endpoint' found
      simp [CountedEndpoint.waits, unlisted other endpoint' found]
    have none_completing := Nat.add_eq_zero_iff.mp steady.no_completions
    simp only [Heap.read_some at_id, bind, Except.bind]
    refine ⟨_, rfl, ?_, steady.leads⟩
    exact
      { steady.toSound with
        freshStreams := by
          apply RbTree.forall_set
          · exact ⟨Nat.lt_succ_self _, fun _ inside => by cases inside⟩
          · intro stream tstream _ lookup
            have small := steady.freshStreams stream tstream lookup
            exact ⟨Nat.lt_succ_of_lt small.1, fun ttopic inside =>
              Nat.lt_succ_of_lt (small.2 _ inside)⟩
        freshEndpoints := by
          intro other endpoint' found
          have small := steady.freshEndpoints other endpoint' found
          exact ⟨Nat.lt_succ_of_lt small.1, fun stream given =>
            Nat.lt_succ_of_lt (small.2 stream given)⟩
        nodes := RbTree.forall_set .nil (fun stream tstream _ => steady.nodes stream tstream)
        listed := by
          apply RbTree.forall_set
          · intro address name type other
            constructor
            · rintro ⟨ttopic, inside, _⟩
              cases inside
            · rintro ⟨endpoint', found, _, given, _⟩
              exact absurd given (unlisted other endpoint' found)
          · exact fun stream tstream _ => steady.listed stream tstream
        given := by
          intro other endpoint' stream found given present
          obtain ⟨tstream, lookup, kind⟩ := steady.given other endpoint' stream found given present
          exact ⟨tstream, kept lookup, kind⟩
        streamless := by
          intro other endpoint' found streamless
          obtain ⟨off, setting, holding, own⟩ := steady.streamless other endpoint' found streamless
          rw [held] at holding
          cases holding
          exact ⟨off, _, rfl, own⟩
        counted := by
          apply RbTree.forall_set
          · simp only [owing, waiting] at no_wait ⊢
            rw [no_wait]
            rfl
          · intro stream tstream _ lookup
            have total := steady.counted stream tstream lookup
            simp only [owing, held] at total ⊢
            exact total
        due := by
          intro other endpoint' found
          have due := steady.due other endpoint' found
          have joins : StreamCounts.joins { state with
              streams := state.streams.set state.fresh ⟨thread, endpoint.mType, 0, false, []⟩
              fresh := state.fresh + 1
              completing := state.completing ++ [(state.fresh, id)]
              setting := some (.store id state.fresh) } other =
                state.joins other + if id = other then 1 else 0 := by
            simp only [StreamCounts.joins, List.countP_append, List.countP_singleton,
              decide_eq_true_eq, Nat.add_assoc]
            rfl
          rw [joins]
          by_cases own : id = other
          · subst own
            rw [at_id] at found
            cases found
            have off := (steady.streamless id endpoint at_id none_given).1
            exact { due with joins := by simp [unqueued, off] }
          · rw [if_neg own]
            exact due
        completes := by
          apply RbTree.forall_set
          · rw [List.countP_append, none_completing.1]
            have := none_completing.2
            simp only [pending] at this ⊢
            rw [this]
            simp
          · intro stream tstream apart lookup
            have few := steady.completes stream tstream lookup
            rw [List.countP_append, List.countP_singleton, if_neg (by simpa using Ne.symm apart)]
            exact few
        creators := by
          intro stream other member
          rcases List.mem_append.mp member with old | new
          · obtain ⟨on_thread, serves⟩ := steady.creators stream other old
            exact ⟨on_thread, Serves.lasts later steady.toSound serves⟩
          · cases List.mem_singleton.mp new
            refine ⟨thread, ⟨endpoint, at_id, .inr rfl⟩, ?_⟩
            intro tstream found
            rw [RbTree.find_set_self] at found
            cases found
            rfl
        entries := by
          intro entry member
          refine Owed.lasts later steady.toSound (steady.entries entry member) ?_
          exact fun freed freeing => RbTree.isSome_set (steady.frees member freeing) _ _
        phase := by
          rintro _ ⟨⟩
          exact ⟨endpoint, at_id, returned, none_given, _, RbTree.find_set_self _ _ _, rfl⟩ }
  · exact ⟨state, rfl, steady⟩

end StreamCounts

end Sbf
