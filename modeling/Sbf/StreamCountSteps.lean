import Sbf.StreamCounting

set_option autoImplicit false

namespace Sbf.StreamCounts

open Octets Topics

/-- Two states of an endpoint that differ in flags only. -/
structure Alike (before after : CountedEndpoint) : Prop where
  mType : after.mType = before.mType
  mTopic : after.mTopic = before.mTopic
  mTportStream : after.mTportStream = before.mTportStream
  mTportTopic : after.mTportTopic = before.mTportTopic
  added : after.added = before.added
  gone : after.gone = before.gone

theorem Alike.refl (endpoint : CountedEndpoint) : Alike endpoint endpoint :=
  ⟨rfl, rfl, rfl, rfl, rfl, rfl⟩

/-- With fewer steps left of the kinds that only have a bound. -/
theorem Due.fewer {endpoint : CountedEndpoint} {joining unholding removing settling : Nat}
    (due : Due endpoint joining unholding removing settling) {joining' settling' : Nat}
    (joins : joining' ≤ joining) (settles : settling' ≤ settling) :
    Due endpoint joining' unholding removing settling' where
  joins := by
    have := due.joins
    omega
  unholds := due.unholds
  settles := settles.trans due.settles
  removes := due.removes
  added := due.added
  ready := due.ready
  gone away := by
    obtain ⟨on, destroyed, none_left, settled⟩ := due.gone away
    exact ⟨on, destroyed, none_left, fun removed => by have := settled removed; omega⟩

/-- The endpoints are the same but for flags, and the streams are. -/
structure SameBut (before after : StreamCounts) : Prop where
  streams : after.streams = before.streams
  fresh : after.fresh = before.fresh
  back : ∀ id endpoint', after.endpoints.find id = some endpoint' →
    ∃ endpoint, before.endpoints.find id = some endpoint ∧ Alike endpoint endpoint'
  forth : ∀ id endpoint, before.endpoints.find id = some endpoint →
    ∃ endpoint', after.endpoints.find id = some endpoint' ∧ Alike endpoint endpoint'
  waiting : ∀ stream, after.waiting stream = before.waiting stream
  owing : ∀ stream, after.owing stream = before.owing stream
  stores : ∀ id stream, before.setting = some (.store id stream) →
    after.setting = some (.store id stream)
  holds : ∀ setting, before.setting = some setting → (∀ id, setting ≠ .unlock id) →
    ∃ setting', after.setting = some setting' ∧ setting'.endpoint = setting.endpoint

section SameBut

variable {before after : StreamCounts} (same : SameBut before after)
include same

theorem SameBut.later : Later before after where
  endpoints id endpoint found := by
    obtain ⟨endpoint', found', alike⟩ := same.forth id endpoint found
    exact ⟨endpoint', found', fun stream given => alike.mTportStream.trans given,
      fun on => by rw [alike.mTportTopic]; exact on⟩
  streams stream _ tstream' lookup := by
    rw [same.streams] at lookup
    exact ⟨tstream', lookup, rfl, id⟩
  setting id stream storing := .inl (same.stores id stream storing)

theorem SameBut.live {stream : StreamId} {endpoint endpoint' : CountedEndpoint}
    (alike : Alike endpoint endpoint') (live : before.Live stream endpoint) :
    after.Live stream endpoint' := by
  obtain ⟨tstream, lookup, kind⟩ := live
  exact ⟨tstream, by rw [same.streams]; exact lookup, kind.trans alike.mType.symm⟩

theorem Sound.of_same (sound : Sound before)
    (due : ∀ id endpoint, after.endpoints.find id = some endpoint →
      Due endpoint (after.joins id) (after.pending (· = .unhold id))
        (after.pending (· = .remove id)) (after.pending (·.settles id)))
    (completes : ∀ id,
      after.completing.countP (·.1 = id) + after.pending (·.completes id) ≤
        before.completing.countP (·.1 = id) + before.pending (·.completes id))
    (creators : ∀ entry ∈ after.completing, entry ∈ before.completing)
    (entries : ∀ entry ∈ after.work, entry ∈ before.work ∨ after.Owed entry.1 entry.2)
    (phase : ∀ setting, after.setting = some setting → ∃ endpoint,
      after.endpoints.find setting.endpoint = some endpoint ∧ endpoint.mDestroyed = false ∧
        after.Phase endpoint setting) : Sound after where
  freshStreams := by
    rw [same.streams, same.fresh]
    exact sound.freshStreams
  freshEndpoints id endpoint' found' := by
    obtain ⟨endpoint, found, alike⟩ := same.back id endpoint' found'
    rw [same.fresh, alike.mTportStream]
    exact sound.freshEndpoints id endpoint found
  nodes := by
    rw [same.streams]
    exact sound.nodes
  listed stream tstream lookup address name type id := by
    rw [same.streams] at lookup
    rw [sound.listed stream tstream lookup]
    constructor
    · rintro ⟨endpoint, found, here, given, node, of_type, named⟩
      obtain ⟨endpoint', found', alike⟩ := same.forth id endpoint found
      exact ⟨endpoint', found', alike.gone.trans here, alike.mTportStream.trans given,
        alike.mTportTopic.trans node, alike.mType.trans of_type, alike.mTopic.trans named⟩
    · rintro ⟨endpoint', found', here, given, node, of_type, named⟩
      obtain ⟨endpoint, found, alike⟩ := same.back id endpoint' found'
      exact ⟨endpoint, found, alike.gone.symm.trans here, alike.mTportStream.symm.trans given,
        alike.mTportTopic.symm.trans node, alike.mType.symm.trans of_type,
        alike.mTopic.symm.trans named⟩
  given id endpoint' stream found' given present := by
    obtain ⟨endpoint, found, alike⟩ := same.back id endpoint' found'
    rw [alike.added, alike.gone] at present
    exact same.live alike (sound.given id endpoint stream found
      (alike.mTportStream.symm.trans given) present)
  streamless id endpoint' found' streamless := by
    obtain ⟨endpoint, found, alike⟩ := same.back id endpoint' found'
    rw [alike.mTportStream] at streamless
    obtain ⟨off, setting, held, own⟩ := sound.streamless id endpoint found streamless
    refine ⟨alike.mTportTopic.trans off, ?_⟩
    obtain ⟨setting', held', own'⟩ := same.holds setting held (by
      rintro other rfl
      obtain ⟨holder, at_holder, _, has_stream⟩ := sound.phase _ held
      rw [own, found] at at_holder
      cases at_holder
      exact has_stream streamless)
    exact ⟨setting', held', own'.trans own⟩
  counted id tstream lookup := by
    rw [same.streams] at lookup
    rw [same.owing, same.waiting]
    exact sound.counted id tstream lookup
  due := due
  completes id tstream lookup := by
    rw [same.streams] at lookup
    have := sound.completes id tstream lookup
    have := completes id
    omega
  creators stream id member := by
    obtain ⟨thread, serves⟩ := sound.creators stream id (creators _ member)
    exact ⟨thread, Serves.lasts same.later sound serves⟩
  entries entry member := by
    rcases entries entry member with old | owed
    · refine Owed.lasts same.later sound (sound.entries entry old) ?_
      intro stream freeing
      rw [same.streams]
      exact sound.frees old freeing
    · exact owed
  phase := phase

omit same in
theorem Phase.of_same (same : SameBut before after) {endpoint endpoint' : CountedEndpoint}
    (alike : Alike endpoint endpoint') (joins : ∀ id, before.joins id = 0 → after.joins id = 0)
    {setting : SetStream} (phase : before.Phase endpoint setting) :
    after.Phase endpoint' setting :=
  phase.congr alike.mTportStream joins (fun _ => same.live alike)

end SameBut

theorem SameBut.of_eq {before after : StreamCounts} (streams : after.streams = before.streams)
    (endpoints : after.endpoints = before.endpoints) (fresh : after.fresh = before.fresh)
    (owing : ∀ stream, after.owing stream = before.owing stream)
    (stores : ∀ id stream, before.setting = some (.store id stream) →
      after.setting = some (.store id stream))
    (holds : ∀ setting, before.setting = some setting → (∀ id, setting ≠ .unlock id) →
      ∃ setting', after.setting = some setting' ∧ setting'.endpoint = setting.endpoint) :
    SameBut before after where
  streams := streams
  fresh := fresh
  back id endpoint found := ⟨endpoint, by rw [← endpoints]; exact found, .refl endpoint⟩
  forth id endpoint found := ⟨endpoint, by rw [endpoints]; exact found, .refl endpoint⟩
  waiting stream := by
    simp only [StreamCounts.waiting, endpoints]
  owing := owing
  stores := stores
  holds := holds

section Work

variable {state : StreamCounts} {thread : Nat} {step : ThreadStep}

theorem SameBut.work (state : StreamCounts) (work : List (Nat × ThreadStep))
    (completing : List (StreamId × EndpointId)) :
    SameBut state { state with work := work, completing := completing } :=
  .of_eq rfl rfl rfl (fun _ => rfl) (fun _ _ => id) (fun setting held _ => ⟨setting, held, rfl⟩)

/-- The order of the steps does not matter here. -/
theorem Sound.perm (sound : Sound state) {work : List (Nat × ThreadStep)}
    (perm : work.Perm state.work) : Sound { state with work := work } := by
  have same := SameBut.work state work state.completing
  have counts : ∀ p, StreamCounts.pending { state with work := work } p = state.pending p :=
    fun p => perm.countP_eq _
  have joins : ∀ id, StreamCounts.joins { state with work := work } id = state.joins id := by
    intro id
    rw [StreamCounts.joins, counts]
    rfl
  refine sound.of_same same ?_ ?_ (fun _ => id) (fun entry member => .inl (perm.mem_iff.mp member)) ?_
  · intro id endpoint found
    rw [joins, counts, counts, counts]
    exact sound.due id endpoint found
  · intro id
    rw [counts]
  · intro setting held
    obtain ⟨endpoint, found, returned, phase⟩ := sound.phase setting held
    exact ⟨endpoint, found, returned,
      phase.of_same same (.refl endpoint) (fun id zero => (joins id).trans zero)⟩

theorem pending_cons (p : ThreadStep → Bool) :
    StreamCounts.pending { state with work := (thread, step) :: state.work } p =
      state.pending p + (p step).toNat := by
  rw [pending, List.countP_cons]
  cases p step <;> rfl

theorem pending_append (p : ThreadStep → Bool) (setting : Option SetStream) :
    StreamCounts.pending { state with work := state.work ++ [(thread, step)], setting := setting } p =
      state.pending p + (p step).toNat := by
  rw [pending, List.countP_append, List.countP_singleton]
  cases p step <;> rfl

theorem joins_append (id : EndpointId) (setting : Option SetStream) :
    StreamCounts.joins { state with work := state.work ++ [(thread, step)], setting := setting } id =
      state.joins id + (step.joins id).toNat := by
  rw [joins, pending_append, joins]
  simp only [Nat.add_right_comm]

theorem joins_cons (id : EndpointId) :
    StreamCounts.joins { state with work := (thread, step) :: state.work } id =
      state.joins id + (step.joins id).toNat := by
  rw [joins, pending_cons, joins]
  simp only [Nat.add_right_comm]

/-- A step that nothing but a bound counts may be left out. -/
theorem Sound.forget (sound : Sound { state with work := (thread, step) :: state.work })
    (unholds : ∀ id, step ≠ .unhold id) (removes : ∀ id, step ≠ .remove id) : Sound state := by
  have same := SameBut.work { state with work := (thread, step) :: state.work } state.work
    state.completing
  refine sound.of_same same ?_ ?_ (fun _ => id) (fun entry member => .inl (.tail _ member)) ?_
  · intro id endpoint found
    have due := sound.due id endpoint found
    rw [joins_cons, pending_cons, pending_cons, pending_cons, decide_eq_false (unholds id),
      decide_eq_false (removes id)] at due
    exact due.fewer (Nat.le_add_right _ _) (Nat.le_add_right _ _)
  · intro id
    rw [pending_cons]
    exact Nat.add_le_add_left (Nat.le_add_right _ _) _
  · intro setting held
    obtain ⟨endpoint, found, returned, phase⟩ := sound.phase setting held
    refine ⟨endpoint, found, returned, phase.of_same same (.refl endpoint) ?_⟩
    intro id zero
    rw [joins_cons] at zero
    exact Nat.eq_zero_of_add_eq_zero_right zero

end Work

section SetStream

variable {state : StreamCounts} (steady : Steady state)
include steady

theorem Steady.found (stream : StreamId) :
    ∃ next, state.found stream = .ok next ∧ Steady next := by
  unfold StreamCounts.found
  split
  · rename_i id held
    obtain ⟨endpoint, at_id, returned, streamless, unqueued⟩ := steady.phase _ held
    simp only [SetStream.endpoint] at at_id
    simp only [Heap.read_some at_id, bind, Except.bind]
    split
    · exact ⟨state, rfl, steady⟩
    · rename_i tstream lookup
      split
      · rename_i kind
        have same : SameBut state { state with setting := some (.enqueue id stream) } := by
          refine .of_eq rfl rfl rfl ?_ ?_ ?_
          · simp [owing, held]
          · simp [held]
          · simp [held, SetStream.endpoint]
        refine ⟨_, rfl, ?_, steady.leads⟩
        refine steady.of_same same steady.due (fun _ => le_rfl) (fun _ member => member)
          (fun _ => .inl) ?_
        rintro _ ⟨⟩
        exact ⟨endpoint, at_id, returned, streamless, unqueued, tstream, lookup, kind⟩
      · exact ⟨state, rfl, steady⟩
  · exact ⟨state, rfl, steady⟩

/-- The add event is queued, for an endpoint that had none. -/
theorem Steady.enqueue {id : EndpointId} {stream : StreamId}
    (held : state.setting = some (.enqueue id stream)) :
    ∃ next, state.setStream = .ok next ∧ Steady next := by
  obtain ⟨endpoint, at_id, returned, streamless, unqueued, tstream, lookup, kind⟩ :=
    steady.phase _ held
  simp only [SetStream.endpoint] at at_id
  have same : SameBut state { state with
      work := state.work ++ [(tstream.mThread, .add id)]
      setting := some (.store id stream) } := by
    refine .of_eq rfl rfl rfl ?_ ?_ ?_
    · simp [owing, held]
    · simp [held]
    · simp [held, SetStream.endpoint]
  refine ⟨_, by simp only [setStream, held, Heap.read_some lookup, bind, Except.bind]; rfl, ?_,
    steady.leads.append tstream.mThread (.add id) (by simp)⟩
  refine steady.of_same same ?_ ?_ (fun _ member => member) ?_ ?_
  · intro other endpoint' found
    have due := steady.due other endpoint' found
    rw [joins_append, pending_append, pending_append, pending_append]
    by_cases own : other = id
    · subst own
      rw [at_id] at found
      cases found
      have off := (steady.streamless other endpoint at_id streamless).1
      simpa [ThreadStep.joins, ThreadStep.settles] using
        { due with joins := by simp [unqueued, off] }
    · simpa [ThreadStep.joins, ThreadStep.settles, Ne.symm own] using due
  · intro other
    rw [pending_append]
    simp [ThreadStep.completes]
  · intro entry member
    rcases List.mem_append.mp member with old | new
    · exact .inl old
    · rw [List.mem_singleton.mp new]
      refine .inr ⟨stream, ⟨endpoint, at_id, .inr rfl⟩, ?_⟩
      intro tstream' lookup'
      rw [lookup] at lookup'
      cases lookup'
      rfl
  · rintro _ ⟨⟩
    exact ⟨endpoint, at_id, returned, streamless, tstream, lookup, kind⟩

theorem Steady.unlock {id : EndpointId} (held : state.setting = some (.unlock id)) :
    ∃ next, state.setStream = .ok next ∧ Steady next := by
  have same : SameBut state { state with setting := none } := by
    refine .of_eq rfl rfl rfl ?_ ?_ ?_
    · simp [owing, held]
    · simp [held]
    · intro setting at_setting other
      rw [held] at at_setting
      cases at_setting
      exact absurd rfl (other id)
  refine ⟨{ state with setting := none }, by simp only [setStream, held], ?_, steady.leads⟩
  exact steady.of_same same steady.due (fun _ => le_rfl) (fun _ member => member) (fun _ => .inl)
    (fun _ held => by cases held)

end SetStream

/-- The stream is there of an endpoint that has still to get to its add callback. -/
theorem Sound.serves_live {state : StreamCounts} (sound : Sound state) {thread : Nat}
    {id : EndpointId} {stream : StreamId} (serves : state.Serves thread id stream)
    (waits : 0 < state.joins id) : ∃ endpoint, state.endpoints.find id = some endpoint ∧
      endpoint.mTportTopic = none ∧ endpoint.added = false ∧ endpoint.gone = false ∧
      state.Live stream endpoint := by
  obtain ⟨⟨endpoint, found, given⟩, _⟩ := serves
  have due := sound.due id endpoint found
  have off : endpoint.mTportTopic = none := by
    have := due.joins
    cases node : endpoint.mTportTopic with
    | none => rfl
    | some address =>
        rw [node] at this
        simp only [Option.toList_some, List.length_singleton] at this
        omega
  have waiting : endpoint.added = false := by
    have := due.added
    rw [off] at this
    simpa using this
  have here : endpoint.gone = false := by
    have := due.gone
    rw [off] at this
    simpa using this
  refine ⟨endpoint, found, off, waiting, here, ?_⟩
  rcases given with given | storing
  · exact sound.given id endpoint stream found given (.inl waiting)
  · obtain ⟨endpoint', found', _, _, live⟩ := sound.phase _ storing
    simp only [SetStream.endpoint, found] at found'
    cases found'
    exact live

theorem Steady.completed {state : StreamCounts} (steady : Steady state) (stream : StreamId)
    (error : Bool) : ∃ next, state.completed stream error = .ok next ∧ Steady next := by
  unfold StreamCounts.completed
  split
  · exact ⟨state, rfl, steady⟩
  · rename_i own id found
    have member := List.mem_of_find?_eq_some found
    obtain rfl : own = stream := by simpa using List.find?_some found
    have perm := List.perm_cons_erase member
    obtain ⟨thread, serves⟩ := steady.creators own id member
    have waits : 0 < state.joins id := by
      have : 0 < state.completing.countP (·.2 = id) := List.countP_pos_iff.mpr ⟨_, member, by simp⟩
      rw [joins]
      omega
    obtain ⟨endpoint, _, _, _, _, tstream, lookup, _⟩ := steady.serves_live serves waits
    simp only [Heap.read_some lookup, bind, Except.bind]
    have same := SameBut.work state (state.work ++ [(tstream.mThread, .complete own id error)])
      (state.completing.erase (own, id))
    have joins_same : ∀ other, StreamCounts.joins { state with
        work := state.work ++ [(tstream.mThread, .complete own id error)]
        completing := state.completing.erase (own, id) } other = state.joins other := by
      intro other
      rw [joins, joins, perm.countP_eq, List.countP_cons, pending, pending, List.countP_append,
        List.countP_singleton]
      simp only [ThreadStep.joins, decide_eq_true_eq]
      split <;> omega
    refine ⟨_, rfl, ?_, steady.leads.append _ _ (by simp)⟩
    refine steady.of_same same ?_ ?_ (fun _ => List.mem_of_mem_erase) ?_ ?_
    · intro other endpoint' found'
      have due := steady.due other endpoint' found'
      rw [joins_same]
      simpa [pending, ThreadStep.settles] using due
    · intro other
      rw [perm.countP_eq, List.countP_cons, pending, pending, List.countP_append,
        List.countP_singleton]
      simp only [ThreadStep.completes, decide_eq_true_eq]
      split <;> omega
    · intro entry inside
      rcases List.mem_append.mp inside with old | new
      · exact .inl old
      · rw [List.mem_singleton.mp new]
        refine .inr ⟨serves.1, ?_⟩
        intro tstream' lookup'
        simp only [lookup] at lookup'
        cases lookup'
        rfl
    · intro setting held
      obtain ⟨holder, at_holder, returned, phase⟩ := steady.phase setting held
      exact ⟨holder, at_holder, returned, phase.of_same same (.refl holder)
        (fun other zero => (joins_same other).trans zero)⟩

section Flags

variable {state : StreamCounts} {id : EndpointId} {before after : CountedEndpoint}
  (found : state.endpoints.find id = some before) (alike : Alike before after)
include found alike

theorem SameBut.flags (work : List (Nat × ThreadStep)) :
    SameBut state { state with endpoints := state.endpoints.set id after, work := work } where
  streams := rfl
  fresh := rfl
  back other endpoint' found' := by
    rcases RbTree.find_set_some found' with ⟨rfl, rfl⟩ | ⟨_, old⟩
    · exact ⟨before, found, alike⟩
    · exact ⟨endpoint', old, .refl endpoint'⟩
  forth other endpoint old := by
    by_cases own : other = id
    · subst own
      rw [found] at old
      cases old
      exact ⟨after, RbTree.find_set_self _ _ _, alike⟩
    · refine ⟨endpoint, ?_, .refl endpoint⟩
      rw [RbTree.find_set, if_neg own]
      exact old
  waiting stream := by
    have counts := waiting_set found after stream
    have same : after.waits stream = before.waits stream := by
      simp only [CountedEndpoint.waits, alike.mTportStream, alike.added]
    rw [same] at counts
    exact Nat.add_right_cancel counts
  owing _ := rfl
  stores _ _ := fun held => held
  holds setting held _ := ⟨setting, held, rfl⟩

/-- Only flags of the endpoint change, and only how often it is to be removed. -/
theorem Sound.setFlags (sound : Sound state) {work : List (Nat × ThreadStep)}
    (counts : ∀ p : ThreadStep → Bool, p (.remove id) = false →
      work.countP (fun entry => p entry.2) = state.pending p)
    (due : Due after (state.joins id) (state.pending (· = .unhold id))
      (work.countP (·.2 = .remove id)) (state.pending (·.settles id)))
    (holder : ∀ setting, state.setting = some setting → setting.endpoint = id →
      after.mDestroyed = false)
    (entries : ∀ entry ∈ work, entry ∈ state.work ∨
      StreamCounts.Owed { state with
        endpoints := state.endpoints.set id after
        work := work } entry.1 entry.2) :
    Sound { state with endpoints := state.endpoints.set id after, work := work } := by
  have same := SameBut.flags found alike work
  have joins : ∀ other, StreamCounts.joins { state with
      endpoints := state.endpoints.set id after
      work := work } other = state.joins other := by
    intro other
    rw [StreamCounts.joins, StreamCounts.pending, counts _ rfl]
    rfl
  refine sound.of_same same ?_ ?_ (fun _ member => member) entries ?_
  · intro other endpoint' found'
    rw [joins]
    simp only [StreamCounts.pending]
    rw [counts (·.settles other) rfl, counts (· = .unhold other) (by simp)]
    rcases RbTree.find_set_some found' with ⟨rfl, rfl⟩ | ⟨apart, old⟩
    · exact due
    · rw [counts (· = .remove other) (by simpa using Ne.symm apart)]
      exact sound.due other endpoint' old
  · intro other
    simp only [StreamCounts.pending]
    rw [counts (·.completes other) rfl]
    rfl
  · intro setting held
    obtain ⟨endpoint, at_holder, returned, phase⟩ := sound.phase setting held
    by_cases own : setting.endpoint = id
    · rw [own, found] at at_holder
      cases at_holder
      refine ⟨after, ?_, holder setting held own, ?_⟩
      · rw [own]
        exact RbTree.find_set_self _ _ _
      · exact phase.of_same same alike (fun other zero => (joins other).trans zero)
    · refine ⟨endpoint, ?_, returned, phase.of_same same (.refl endpoint)
        (fun other zero => (joins other).trans zero)⟩
      exact (RbTree.find_set _ _ _ _).trans ((if_neg own).trans at_holder)

end Flags

theorem Steady.destroy {state : StreamCounts} (steady : Steady state) (id : EndpointId) :
    ∃ next, state.destroy id = .ok next ∧ Steady next := by
  unfold StreamCounts.destroy
  split
  · exact ⟨state, rfl, steady⟩
  · rename_i endpoint found
    split
    · exact ⟨state, rfl, steady⟩
    · rename_i allowed
      obtain ⟨kept, returned⟩ := not_or.mp allowed
      have due := steady.due id endpoint found
      have here : endpoint.gone = false := by
        cases away : endpoint.gone with
        | false => rfl
        | true => exact absurd (due.gone away).2.1 kept
      cases given : endpoint.mTportStream with
      | none =>
          obtain ⟨_, setting, held, own⟩ := steady.streamless id endpoint found given
          exact absurd (by rw [held, Option.map_some, own]) returned
      | some stream =>
          obtain ⟨tstream, lookup, _⟩ := steady.given id endpoint stream found given (.inr here)
          simp only [notNull, Heap.read_some lookup, bind, Except.bind]
          refine ⟨_, rfl, ?_, steady.leads.append _ _ (by simp)⟩
          have removes := due.removes here
          simp only [Bool.not_eq_true] at kept
          have alike : Alike endpoint
              { endpoint with mDestroyed := true, mTportStream := some stream } :=
            ⟨rfl, rfl, given.symm, rfl, rfl, rfl⟩
          refine steady.setFlags found alike ?_ ?_ ?_ ?_
          · intro p other
            rw [List.countP_append, List.countP_singleton, other]
            rfl
          · refine { due with removes := ?_, gone := fun away => ?_ }
            · intro _
              rw [kept] at removes
              rw [List.countP_append, List.countP_singleton]
              simp only [pending, Bool.toNat_false, decide_true, if_true, Bool.toNat_true]
                at removes ⊢
              omega
            · rw [here] at away
              cases away
          · intro setting held own
            exact absurd (by rw [held, Option.map_some, own]) returned
          · intro entry inside
            rcases List.mem_append.mp inside with old | new
            · exact .inl old
            · rw [List.mem_singleton.mp new]
              refine .inr ⟨stream, ⟨_, RbTree.find_set_self _ _ _, .inl rfl⟩, ?_⟩
              intro tstream' lookup'
              simp only [lookup] at lookup'
              cases lookup'
              rfl

section Stored

variable {state : StreamCounts} (steady : Steady state)
include steady

/-- The endpoint has the stream from here on, and its reference is still to be taken. -/
theorem Steady.store {id : EndpointId} {stream : StreamId}
    (held : state.setting = some (.store id stream)) :
    ∃ next, state.setStream = .ok next ∧ Steady next := by
  obtain ⟨endpoint, at_id, returned, none_given, tstream, lookup, kind⟩ := steady.phase _ held
  simp only [SetStream.endpoint] at at_id
  have off := (steady.streamless id endpoint at_id none_given).1
  have due := steady.due id endpoint at_id
  have waits : endpoint.added = false := by
    have := due.added
    rw [off] at this
    simpa using this
  have here : endpoint.gone = false := by
    have := due.gone
    rw [off] at this
    simpa using this
  have later : Later state { state with
      endpoints := state.endpoints.set id { endpoint with mTportStream := some stream }
      setting := some (.increment id stream) } := by
    refine ⟨?_, fun _ _ tstream' old => ⟨tstream', old, rfl, fun ready => ready⟩, ?_⟩
    · intro other endpoint' old
      by_cases own : other = id
      · subst own
        rw [at_id] at old
        cases old
        refine ⟨_, RbTree.find_set_self _ _ _, ?_, fun on => on⟩
        intro _ given
        rw [none_given] at given
        cases given
      · exact ⟨endpoint', (RbTree.find_set _ _ _ _).trans ((if_neg own).trans old),
          fun _ given => given, fun on => on⟩
    · intro other at_stream storing
      rw [held] at storing
      cases storing
      exact .inr ⟨_, RbTree.find_set_self _ _ _, rfl⟩
  refine ⟨{ state with
    endpoints := state.endpoints.set id { endpoint with mTportStream := some stream }
    setting := some (.increment id stream) }, ?_, ?_, steady.leads⟩
  · simp only [setStream, held, Heap.read_some at_id, bind, Except.bind]
    rfl
  exact
    { steady.toSound with
      freshEndpoints := by
        apply RbTree.forall_set
        · refine ⟨(steady.freshEndpoints id endpoint at_id).1, ?_⟩
          rintro _ ⟨⟩
          exact (steady.freshStreams stream tstream lookup).1
        · exact fun other endpoint' _ => steady.freshEndpoints other endpoint'
      listed := by
        intro at_stream tstream' lookup' address name type other
        rw [steady.listed at_stream tstream' lookup']
        by_cases own : other = id
        · subst own
          simp only [RbTree.find_set_self, at_id, Option.some.injEq, exists_eq_left', off,
            reduceCtorEq, false_and, and_false]
        · simp only [RbTree.find_set, if_neg own]
      given := by
        intro other endpoint' at_stream found given
        rcases RbTree.find_set_some found with ⟨rfl, rfl⟩ | ⟨_, old⟩
        · cases given
          exact fun _ => ⟨tstream, lookup, kind⟩
        · exact steady.given other endpoint' at_stream old given
      streamless := by
        intro other endpoint' found streamless
        rcases RbTree.find_set_some found with ⟨rfl, rfl⟩ | ⟨apart, old⟩
        · cases streamless
        · obtain ⟨_, setting, holding, own⟩ := steady.streamless other endpoint' old streamless
          rw [held] at holding
          cases holding
          exact absurd own.symm apart
      counted := by
        intro at_stream tstream' lookup'
        have total := steady.counted at_stream tstream' lookup'
        have counts := waiting_set at_id { endpoint with mTportStream := some stream } at_stream
        have before_waits : endpoint.waits at_stream = false := by
          simp [CountedEndpoint.waits, none_given]
        have after_waits : CountedEndpoint.waits at_stream
            { endpoint with mTportStream := some stream } = decide (stream = at_stream) := by
          simp [CountedEndpoint.waits, waits]
        rw [before_waits, after_waits] at counts
        simp only [owing, held, waiting] at total counts ⊢
        by_cases same : stream = at_stream
        · simp only [same, if_true, decide_true, Bool.toNat_true, Bool.toNat_false] at counts ⊢
          omega
        · simp only [same, if_false, decide_false, Bool.toNat_false] at counts ⊢
          omega
      due := by
        apply RbTree.forall_set
        · exact { due with }
        · exact fun other endpoint' _ => steady.due other endpoint'
      creators := by
        intro at_stream other member
        obtain ⟨thread, serves⟩ := steady.creators at_stream other member
        exact ⟨thread, Serves.lasts later steady.toSound serves⟩
      entries := by
        intro entry member
        refine Owed.lasts later steady.toSound (steady.entries entry member) ?_
        exact fun freed freeing => steady.frees member freeing
      phase := by
        rintro _ ⟨⟩
        exact ⟨_, RbTree.find_set_self _ _ _, returned, rfl⟩ }

/-- The reference is taken, whether or not the add callback has already dropped it. -/
theorem Steady.increment {id : EndpointId} {stream : StreamId}
    (held : state.setting = some (.increment id stream)) :
    ∃ next, state.setStream = .ok next ∧ Steady next := by
  obtain ⟨endpoint, at_id, returned, stored⟩ := steady.phase _ held
  simp only [SetStream.endpoint, Phase] at at_id stored
  have here : endpoint.gone = false := by
    cases away : endpoint.gone with
    | false => rfl
    | true =>
        have destroyed := ((steady.due id endpoint at_id).gone away).2.1
        rw [returned] at destroyed
        cases destroyed
  obtain ⟨tstream, lookup, kind⟩ := steady.given id endpoint stream at_id stored (.inr here)
  have later : Later state { state with
      streams := state.streams.set stream { tstream with mRefCount := tstream.mRefCount + 1 }
      setting := some (.unlock id) } := by
    refine ⟨fun other endpoint' old => ⟨endpoint', old, fun _ given => given, fun on => on⟩, ?_, ?_⟩
    · intro other _ tstream' found
      rcases RbTree.find_set_some found with ⟨rfl, rfl⟩ | ⟨_, old⟩
      · exact ⟨tstream, lookup, rfl, fun ready => ready⟩
      · exact ⟨tstream', old, rfl, fun ready => ready⟩
    · intro other at_stream storing
      rw [held] at storing
      cases storing
  refine ⟨{ state with
    streams := state.streams.set stream { tstream with mRefCount := tstream.mRefCount + 1 }
    setting := some (.unlock id) }, ?_, ?_, steady.leads⟩
  · simp only [setStream, held, Heap.read_some lookup, bind, Except.bind]
    rfl
  exact
    { steady.toSound with
      freshStreams := RbTree.forall_set (steady.freshStreams stream tstream lookup)
        (fun other tstream' _ => steady.freshStreams other tstream')
      nodes := RbTree.forall_set (steady.nodes stream tstream lookup)
        (fun other tstream' _ => steady.nodes other tstream')
      listed := RbTree.forall_set (steady.listed stream tstream lookup)
        (fun other tstream' _ => steady.listed other tstream')
      given := by
        intro other endpoint' at_stream found given present
        refine (steady.given other endpoint' at_stream found given present).set lookup rfl ?_ rfl
        rfl
      streamless := by
        intro other endpoint' found streamless
        obtain ⟨off, setting, holding, own⟩ := steady.streamless other endpoint' found streamless
        rw [held] at holding
        cases holding
        exact ⟨off, _, rfl, own⟩
      counted := by
        have total := steady.counted stream tstream lookup
        simp only [owing, held, if_true] at total
        apply RbTree.forall_set
        · simp only [owing, waiting] at total ⊢
          omega
        · intro other tstream' apart old
          have total := steady.counted other tstream' old
          simp only [owing, held, if_neg (Ne.symm apart)] at total
          exact total
      completes := RbTree.forall_set (steady.completes stream tstream lookup)
        (fun other tstream' _ => steady.completes other tstream')
      creators := by
        intro at_stream other member
        obtain ⟨thread, serves⟩ := steady.creators at_stream other member
        exact ⟨thread, Serves.lasts later steady.toSound serves⟩
      entries := by
        intro entry member
        refine Owed.lasts later steady.toSound (steady.entries entry member) ?_
        exact fun freed freeing => RbTree.isSome_set (steady.frees member freeing) _ _
      phase := by
        rintro _ ⟨⟩
        exact ⟨endpoint, at_id, returned, by rw [Phase, stored]; simp⟩ }

end Stored

end Sbf.StreamCounts
