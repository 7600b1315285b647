import Sbf.EndpointSteps

set_option autoImplicit false

namespace Sbf.Tport

open Octets Topics

variable {H S : Type}

/-- A stream at an address that nobody has seen. -/
theorem Sound.newStream {tport : Tport H S} (sound : Sound tport) {stream : StreamId} {fresh : Nat}
    (unused : tport.fresh ≤ stream) (used : stream < fresh) (thread : Nat) (mStream : S) :
    Sound { tport with
      streams := tport.streams.set stream ⟨thread, mStream, 0, false, []⟩
      fresh := fresh } := by
  have grows : tport.fresh ≤ fresh := Nat.le_trans unused (Nat.le_of_lt used)
  have nobody : ∀ id endpoint, tport.endpoints.find id = some endpoint →
      endpoint.mTportStream ≠ some stream := fun id endpoint lookup given =>
    Nat.not_le_of_lt ((sound.freshEndpoints id endpoint lookup).2 stream given) unused
  exact { sound with
    freshStreams := by
      apply RbTree.forall_set
      · exact ⟨used, fun ttopic inside => by cases inside⟩
      · intro other tstream _ old
        have small := sound.freshStreams other tstream old
        exact ⟨Nat.lt_of_lt_of_le small.1 grows,
          fun ttopic inside => Nat.lt_of_lt_of_le (small.2 ttopic inside) grows⟩
    freshEndpoints := by
      intro id endpoint lookup
      have small := sound.freshEndpoints id endpoint lookup
      exact ⟨Nat.lt_of_lt_of_le small.1 grows,
        fun at_stream given => Nat.lt_of_lt_of_le (small.2 at_stream given) grows⟩
    freshLines := fun id line => Nat.lt_of_lt_of_le (sound.freshLines id line) grows
    nodes := RbTree.forall_set .nil (fun other tstream _ => sound.nodes other tstream)
    occupied := by
      apply RbTree.forall_set
      · exact fun ttopic inside => by cases inside
      · exact fun other tstream _ => sound.occupied other tstream
    listed := by
      apply RbTree.forall_set
      · intro address name type id
        apply iff_of_false
        · rintro ⟨_, inside, _⟩
          cases inside
        · rintro ⟨endpoint, known, _, given, _⟩
          exact nobody id endpoint known given
      · exact fun other tstream _ => sound.listed other tstream
    given := by
      intro id endpoint lookup here
      obtain ⟨at_stream, given, there⟩ := sound.given id endpoint lookup here
      exact ⟨at_stream, given, RbTree.isSome_set there _ _⟩
    counted := by
      apply RbTree.forall_set
      · have waits : ∀ id endpoint, tport.endpoints.find id = some endpoint →
            endpoint.waits stream = false := by
          intro id endpoint lookup
          simp [Endpoint.waits, nobody id endpoint lookup]
        change 0 = ((0 : Nat) : Int) + tport.waiting stream
        rw [waiting, RbTree.count_eq_zero waits]
        rfl
      · exact fun other tstream _ => sound.counted other tstream
    events := by
      intro at_thread event member
      obtain ⟨endpoint, at_stream, tstream, due⟩ := sound.events at_thread event member
      have differs : at_stream ≠ stream := fun same =>
        nobody event.id endpoint due.known (same ▸ due.given)
      have there : (tport.streams.set stream ⟨thread, mStream, 0, false, []⟩).find at_stream =
          some tstream := by
        rw [RbTree.find_set, if_neg differs]
        exact due.found
      exact ⟨endpoint, at_stream, tstream, due.of_same due.known there rfl due.here
        (fun _ => ⟨rfl, rfl⟩)⟩ }

/-- A stream that nobody is to complete becomes ready. -/
theorem Sound.setReady {tport : Tport H S} (sound : Sound tport) {stream : StreamId}
    {tstream : TportStream S} (found : tport.streams.find stream = some tstream)
    (completed : ∀ thread, ∀ event ∈ tport.queues thread, event.Completes →
      tport.streamOf event.id ≠ some stream) :
    Sound { tport with
      streams := tport.streams.set stream { tstream with mReady := true } } :=
  { sound with
    freshStreams := RbTree.forall_set (sound.freshStreams stream tstream found)
      (fun other tstream' _ => sound.freshStreams other tstream')
    nodes := RbTree.forall_set (sound.nodes stream tstream found)
      (fun other tstream' _ => sound.nodes other tstream')
    occupied := RbTree.forall_set (sound.occupied stream tstream found)
      (fun other tstream' _ => sound.occupied other tstream')
    listed := by
      apply RbTree.forall_set
      · exact sound.listed stream tstream found
      · exact fun other tstream' _ => sound.listed other tstream'
    given := by
      intro id endpoint lookup here
      obtain ⟨at_stream, given, there⟩ := sound.given id endpoint lookup here
      exact ⟨at_stream, given, RbTree.isSome_set there _ _⟩
    counted := by
      apply RbTree.forall_set
      · exact sound.counted stream tstream found
      · exact fun other tstream' _ => sound.counted other tstream'
    events := by
      intro thread event member
      obtain ⟨endpoint, at_stream, tstream', due⟩ := sound.events thread event member
      by_cases same : at_stream = stream
      · subst same
        obtain rfl : tstream = tstream' := Option.some.inj (found.symm.trans due.found)
        exact ⟨endpoint, at_stream, _, due.known, due.given, RbTree.find_set_self _ _ _, due.thread,
          due.type, due.here, due.starts, due.removes,
          fun completes => absurd due.streamOf (completed thread event member completes)⟩
      · exact ⟨endpoint, at_stream, tstream', due.of_same due.known
          ((RbTree.find_set _ _ _ _).trans ((if_neg same).trans due.found)) rfl due.here
          (fun _ => ⟨rfl, rfl⟩)⟩ }

/-- Addresses can be skipped. -/
theorem Sound.skip {tport : Tport H S} (sound : Sound tport) {fresh : Nat}
    (grows : tport.fresh ≤ fresh) : Sound { tport with fresh := fresh } :=
  { sound with
    freshStreams := by
      intro other tstream lookup
      have small := sound.freshStreams other tstream lookup
      exact ⟨Nat.lt_of_lt_of_le small.1 grows,
        fun ttopic inside => Nat.lt_of_lt_of_le (small.2 ttopic inside) grows⟩
    freshEndpoints := by
      intro id endpoint lookup
      have small := sound.freshEndpoints id endpoint lookup
      exact ⟨Nat.lt_of_lt_of_le small.1 grows,
        fun stream given => Nat.lt_of_lt_of_le (small.2 stream given) grows⟩
    freshLines := fun id line => Nat.lt_of_lt_of_le (sound.freshLines id line) grows
    events := by
      intro thread event member
      obtain ⟨endpoint, stream, tstream, due⟩ := sound.events thread event member
      exact ⟨endpoint, stream, tstream, due.of_same due.known due.found rfl due.here
        (fun _ => ⟨rfl, rfl⟩)⟩ }

/-- The address of the next object has not been used for an endpoint. -/
theorem Sound.unused {tport : Tport H S} (sound : Sound tport) :
    tport.endpoints.find tport.fresh = none ∧ ¬ tport.Added tport.fresh := by
  constructor
  · apply Option.eq_none_iff_forall_not_mem.mpr
    intro endpoint known
    exact Nat.lt_irrefl _ (sound.freshEndpoints tport.fresh endpoint known).1
  · intro line
    exact Nat.lt_irrefl _ (sound.freshLines tport.fresh (Or.inl line))

/-- An event that is due, and fits behind those of its thread. -/
theorem Sound.enqueue {tport : Tport H S} (sound : Sound tport) {thread : Nat} {event : Event}
    {endpoint : Endpoint} {stream : StreamId} {tstream : TportStream S}
    (due : tport.Due thread event endpoint stream tstream)
    (apart : ∀ first ∈ tport.queues thread, Apart tport.streamOf first event) :
    Sound (tport.enqueueThread thread [event]) := by
  have queues : ∀ other, (tport.enqueueThread thread [event]).queues other =
      if other = thread then tport.queues thread ++ [event] else tport.queues other := fun _ => rfl
  refine { sound with
    events := ?_
    ordered := ?_ }
  · intro other event' member
    have either : (other = thread ∧ event' = event) ∨ event' ∈ tport.queues other := by
      rw [queues] at member
      split at member
      · rename_i same
        rw [same]
        rcases List.mem_append.mp member with old | new
        · exact Or.inr old
        · exact Or.inl ⟨rfl, List.mem_singleton.mp new⟩
      · exact Or.inr member
    rcases either with ⟨rfl, rfl⟩ | old
    · exact ⟨endpoint, stream, tstream, due.of_same due.known due.found rfl due.here
        (fun _ => ⟨rfl, rfl⟩)⟩
    · obtain ⟨endpoint', stream', tstream', due'⟩ := sound.events other event' old
      exact ⟨endpoint', stream', tstream', due'.of_same due'.known due'.found rfl due'.here
        (fun _ => ⟨rfl, rfl⟩)⟩
  · intro other
    rw [queues]
    split
    · rw [List.pairwise_append]
      refine ⟨sound.ordered thread, List.pairwise_singleton _ _, ?_⟩
      intro first inside second inside'
      rw [List.mem_singleton.mp inside']
      exact apart first inside
    · exact sound.ordered other

section Enter

variable {tport : Tport H S} (sound : Sound tport) {id : EndpointId} {endpoint : Endpoint}
  {stream : StreamId} {tstream : TportStream S}
  (absent : tport.endpoints.find id = none) (small : id < tport.fresh) (never : ¬ tport.Added id)
  (given : endpoint.mTportStream = some stream) (waits : endpoint.mTportTopic = none)
  (unready : endpoint.mReady = false) (unmarked : endpoint.mRemoved = false)
  (once : endpoint.mRefCount = 1) (found : tport.streams.find stream = some tstream)

include sound absent in
theorem Sound.known_event {thread : Nat} {event : Event} (member : event ∈ tport.queues thread) :
    event.id ≠ id := by
  rintro rfl
  obtain ⟨_, _, _, due⟩ := sound.events thread event member
  exact Option.some_ne_none _ (due.known.symm.trans absent)

include sound absent never once given waits found in
theorem Sound.enter_references : References { tport with
    endpoints := tport.endpoints.set id endpoint
    streams := tport.streams.set stream { tstream with mRefCount := tstream.mRefCount + 1 } } where
  referred := by
    have no_items : tport.items.count id = 0 := by
      apply List.count_eq_zero.mpr
      intro member
      have known := sound.queued id member
      rw [absent] at known
      cases known
    apply RbTree.forall_set
    · have present : ¬ tport.Gone id := mt (sound.gone id) never
      refine Eq.trans ?_ (congrArg (· + _) (if_neg present).symm)
      change endpoint.mRefCount = 1 + (tport.items.count id : Int)
      omega
    · exact fun other endpoint' _ => sound.referred other endpoint'
  queued other member := RbTree.isSome_set (sound.queued other member) _ _
  counted := by
    have counts : ∀ other, (tport.endpoints.set id endpoint).count
        (fun _ endpoint => endpoint.waits other) =
          tport.waiting other + (decide (stream = other)).toNat := by
      intro other
      have counts := RbTree.count_set tport.endpoints (fun _ endpoint => endpoint.waits other) id
        endpoint
      have waits' : endpoint.waits other = decide (stream = other) := by
        simp [Endpoint.waits, given, waits]
      rw [absent, Option.elim_none, waits'] at counts
      exact counts
    apply RbTree.forall_set
    · have total := sound.counted stream tstream found
      have more := counts stream
      simp only [decide_true, Bool.toNat_true] at more
      simp only [waiting, more] at total ⊢
      omega
    · intro other tstream' elsewhere old
      have more := counts other
      rw [decide_eq_false (Ne.symm elsewhere), Bool.toNat_false, Nat.add_zero] at more
      rw [sound.counted other tstream' old, ← more]
      rfl

include sound absent found in
theorem Sound.enter_scheduled : Scheduled { tport with
    endpoints := tport.endpoints.set id endpoint
    streams := tport.streams.set stream { tstream with mRefCount := tstream.mRefCount + 1 } } where
  events thread event member := by
    obtain ⟨endpoint', at_stream, tstream', due⟩ := sound.events thread event member
    have known : (tport.endpoints.set id endpoint).find event.id = some endpoint' := by
      rw [RbTree.find_set, if_neg (sound.known_event absent member)]
      exact due.known
    by_cases same : at_stream = stream
    · subst same
      obtain rfl : tstream = tstream' := Option.some.inj (found.symm.trans due.found)
      exact ⟨endpoint', at_stream, _, due.of_same known (RbTree.find_set_self _ _ _) rfl due.here
        (fun _ => ⟨rfl, rfl⟩)⟩
    · exact ⟨endpoint', at_stream, tstream', due.of_same known
        ((RbTree.find_set _ _ _ _).trans ((if_neg same).trans due.found)) rfl due.here
        (fun _ => ⟨rfl, rfl⟩)⟩
  ordered thread := by
    apply apart_congr (sound.ordered thread)
    intro event member
    rw [streamOf, streamOf, RbTree.find_set, if_neg (sound.known_event absent member)]

include sound absent waits found in
theorem Sound.enter_listed (at_stream : StreamId) (tstream' : TportStream S)
    (lookup : (tport.streams.set stream { tstream with mRefCount := tstream.mRefCount + 1 }).find
      at_stream = some tstream')
    (address : Nat) (name : CString) (type : TopicType) (other : EndpointId) :
    OnNode tstream'.mTopics address name type other ↔
      ∃ endpoint', (tport.endpoints.set id endpoint).find other = some endpoint' ∧
        ¬ tport.Gone other ∧ endpoint'.mTportStream = some at_stream ∧
        endpoint'.mTportTopic = some address ∧ endpoint'.mTopic.mType = type ∧
        endpoint'.mTopic.mTopic = name := by
  have before : OnNode tstream'.mTopics address name type other ↔
      ∃ endpoint, tport.endpoints.find other = some endpoint ∧ ¬ tport.Gone other ∧
        endpoint.mTportStream = some at_stream ∧ endpoint.mTportTopic = some address ∧
        endpoint.mTopic.mType = type ∧ endpoint.mTopic.mTopic = name := by
    rcases RbTree.find_set_some lookup with ⟨rfl, rfl⟩ | ⟨_, old⟩
    · exact sound.listed at_stream tstream found address name type other
    · exact sound.listed at_stream tstream' old address name type other
  rw [before]
  by_cases same : other = id
  · subst same
    simp only [RbTree.find_set_self, absent, Option.some.injEq, exists_eq_left', waits,
      reduceCtorEq, false_and, and_false, exists_false]
  · simp only [RbTree.find_set, same, ↓reduceIte]

include sound absent small never given waits unready unmarked once found

/-- A new endpoint with a reference to its stream. -/
theorem Sound.enter : Sound { tport with
    endpoints := tport.endpoints.set id endpoint
    streams := tport.streams.set stream { tstream with mRefCount := tstream.mRefCount + 1 } } :=
  { sound.enter_references absent never given waits once found,
    sound.enter_scheduled absent found, sound with
    freshStreams := RbTree.forall_set (sound.freshStreams stream tstream found)
      (fun other tstream' _ => sound.freshStreams other tstream')
    freshEndpoints := by
      apply RbTree.forall_set
      · refine ⟨small, fun at_stream given' => ?_⟩
        obtain rfl : stream = at_stream := Option.some.inj (given.symm.trans given')
        exact (sound.freshStreams stream tstream found).1
      · exact fun other endpoint' _ => sound.freshEndpoints other endpoint'
    nodes := RbTree.forall_set (sound.nodes stream tstream found)
      (fun other tstream' _ => sound.nodes other tstream')
    occupied := RbTree.forall_set (sound.occupied stream tstream found)
      (fun other tstream' _ => sound.occupied other tstream')
    listed := sound.enter_listed absent waits found
    given := by
      intro other endpoint' lookup present
      rcases RbTree.find_set_some lookup with ⟨rfl, rfl⟩ | ⟨_, old⟩
      · exact ⟨stream, given, RbTree.isSome_set (by rw [found]; rfl) _ _⟩
      · obtain ⟨at_stream, given', there⟩ := sound.given other endpoint' old present
        exact ⟨at_stream, given', RbTree.isSome_set there _ _⟩
    added := by
      apply RbTree.forall_set
      · exact iff_of_false never (fun attached => attached waits)
      · exact fun other endpoint' _ => sound.added other endpoint'
    ready := by
      apply RbTree.forall_set
      · rw [unready]
        exact fun same => Bool.noConfusion same
      · exact fun other endpoint' _ => sound.ready other endpoint'
    kept := fun other line present => RbTree.isSome_set (sound.kept other line present) _ _
    marked := by
      apply RbTree.forall_set
      · rintro (marked | away)
        · rw [unmarked] at marked
          cases marked
        · exact absurd (sound.gone id away) never
      · exact fun other endpoint' _ => sound.marked other endpoint' }

/-- A new endpoint with its first event: to be added, or, if the stream is new too, to
complete the stream. -/
theorem Sound.start {event : Event} (own : event.id = id) (starts : event.Starts)
    (of_type : endpoint.mTopic.mType = event.type)
    (first : event.Completes → tstream.mTopics = [] ∧ tstream.mReady = false ∧
      ∀ other, tport.streamOf other ≠ some stream) :
    Sound ({ tport with
      endpoints := tport.endpoints.set id endpoint
      streams := tport.streams.set stream
        { tstream with mRefCount := tstream.mRefCount + 1 } }.enqueueThread
          tstream.mThread [event]) := by
  subst own
  have entered := sound.enter absent small never given waits unready unmarked once found
  have due : Due { tport with
      endpoints := tport.endpoints.set event.id endpoint
      streams := tport.streams.set stream { tstream with mRefCount := tstream.mRefCount + 1 } }
      tstream.mThread event endpoint stream { tstream with mRefCount := tstream.mRefCount + 1 } :=
    ⟨RbTree.find_set_self _ _ _, given, RbTree.find_set_self _ _ _, rfl, of_type,
      fun away => never (sound.gone _ away), fun _ => waits,
      fun removes => absurd starts removes.not_starts,
      fun completes => ⟨unmarked, (first completes).1, (first completes).2.1⟩⟩
  refine entered.enqueue due ?_
  intro earlier member
  have differs : earlier.id ≠ event.id := sound.known_event absent member
  refine ⟨fun _ _ => differs, fun _ => differs, fun _ completes => ?_⟩
  rw [streamOf, streamOf, RbTree.find_set, if_neg differs, RbTree.find_set_self, Option.bind_some,
    given]
  exact (first completes).2.2 earlier.id

end Enter

end Sbf.Tport
