import Sbf.CompletionEvents

set_option autoImplicit false

namespace Sbf.Tport

open Octets Topics

variable {H S : Type} {config : TportConfig H S} {tport next : Tport H S} {out : List Notice}

/-- A notice that comes at its time. -/
theorem Orderly.emit (orderly : Orderly tport out) {notice : Notice} {id : EndpointId}
    (either : notice = .ready id ∨ notice = .destroyed id) (used : id < tport.fresh)
    (ready : notice = .ready id → id ∉ tport.items ∧ .ready id ∉ out ∧ .destroyed id ∉ out ∧
      ∀ endpoint, tport.endpoints.find id = some endpoint → endpoint.mReady = true)
    (destroyed : notice = .destroyed id →
      ∀ endpoint, tport.endpoints.find id = some endpoint → endpoint.mDestroyed = true) :
    Orderly tport (out ++ [notice]) := by
  have ready_of : ∀ {other}, .ready other ∈ out ++ [notice] →
      .ready other ∈ out ∨ notice = .ready id ∧ other = id := by
    intro other member
    rcases List.mem_append.mp member with old | new
    · exact Or.inl old
    · rcases either with rfl | rfl
      · cases List.mem_singleton.mp new
        exact Or.inr ⟨rfl, rfl⟩
      · cases List.mem_singleton.mp new
  have destroyed_of : ∀ {other}, .destroyed other ∈ out ++ [notice] →
      .destroyed other ∈ out ∨ notice = .destroyed id ∧ other = id := by
    intro other member
    rcases List.mem_append.mp member with old | new
    · exact Or.inl old
    · rcases either with rfl | rfl
      · cases List.mem_singleton.mp new
      · cases List.mem_singleton.mp new
        exact Or.inr ⟨rfl, rfl⟩
  exact { orderly with
    unused := by
      intro other large
      obtain ⟨absent, ⟨items, silent, here⟩, alive, events⟩ := orderly.unused other large
      have apart : other ≠ id := by
        rintro rfl
        exact Nat.not_le_of_lt used large
      exact ⟨absent, ⟨items, fun member => (ready_of member).elim silent (fun same => apart same.2),
        here⟩, fun member => (destroyed_of member).elim alive (fun same => apart same.2), events⟩
    each := by
      intro other endpoint found
      have fits := orderly.each other endpoint found
      exact { fits with
        unready := by
          intro unready
          obtain ⟨⟨items, silent, here⟩, once⟩ := fits.unready unready
          refine ⟨⟨items, fun member => ?_, here⟩, once⟩
          rcases ready_of member with old | ⟨same, rfl⟩
          · exact silent old
          · exact Bool.noConfusion (unready.symm.trans ((ready same).2.2.2 endpoint found))
        destroyed := by
          intro member
          rcases destroyed_of member with old | ⟨same, rfl⟩
          · exact fits.destroyed old
          · exact destroyed same endpoint found }
    kept := by
      intro other inside member
      rcases ready_of member with old | ⟨same, rfl⟩
      · exact orderly.kept other inside old
      · exact (ready same).1 inside
    inOrder := by
      rw [List.pairwise_append]
      refine ⟨orderly.inOrder, List.pairwise_singleton _ _, ?_⟩
      rintro first inside _ last other rfl
      rcases ready_of (List.mem_append_right out last) with old | ⟨same, rfl⟩
      · rw [← List.mem_singleton.mp last] at either
        rcases either with same | same
        · cases same
          exact absurd old (ready (List.mem_singleton.mp last).symm).2.1
        · cases same
      · obtain ⟨_, silent, alive, _⟩ := ready same
        exact ⟨fun same => silent (same ▸ inside), fun same => alive (same ▸ inside)⟩ }

/-- A queued ready callback. -/
theorem Orderly.dispatch (orderly : Orderly tport out) {id : EndpointId}
    (member : id ∈ tport.items) {emitted : List EndpointId}
    (ran : readyQueueCb id { tport with items := tport.items.erase id } = .ok (next, emitted)) :
    Orderly next (out ++ emitted.map .ready) := by
  obtain ⟨endpoint, read, ran⟩ := bind_ok ran
  obtain ⟨middle, released, ran⟩ := bind_ok ran
  cases ran
  have found : tport.endpoints.find id = some endpoint := Heap.find_of_read read
  have used := orderly.used found
  have fits := orderly.each id endpoint found
  have ready : endpoint.mReady = true := by
    by_contra unready
    exact (fits.unready (Bool.eq_false_iff.mpr unready)).1.items member
  have touches : Touches id tport { tport with items := tport.items.erase id } :=
    ⟨used, Nat.le_refl _, fun _ there => there, fun _ _ => rfl,
      fun endpoint known => ⟨endpoint, known, rfl⟩,
      fun _ _ inside => List.mem_of_mem_erase inside, orderly.items.erase id, fun _ _ gone => gone,
      fun _ => List.Sublist.refl _⟩
  have erased : Orderly { tport with items := tport.items.erase id } out := by
    refine orderly.touch touches ?_ (fun _ => orderly.kept id member) ?_
    · intro endpoint' known
      obtain rfl := Option.some.inj (found.symm.trans known)
      exact { fits with unready := fun unready => Bool.noConfusion (ready.symm.trans unready) }
    · intro other stream _ _
      exact (SameAt.of_endpoints touches.fresh rfl rfl).keeps
  have after := erased.released found ready (fun _ _ _ => rfl) (.refl 0 _)
    (fun _ inside => absurd inside List.not_mem_nil) released
  have known : ({ tport with items := tport.items.erase id } : Tport H S).endpoints.find id =
      some endpoint := found
  rw [release_eq known] at released
  cases released
  by_cases alive : endpoint.mDestroyed = true
  · rw [if_pos alive, List.map_nil, List.append_nil]
    exact after
  · rw [if_neg alive]
    refine after.emit (Or.inl rfl) used ?_ (fun same => by cases same)
    intro _
    refine ⟨orderly.items.not_mem_erase, orderly.kept id member,
      fun told => alive (fits.destroyed told), ?_⟩
    intro endpoint' known'
    dsimp only at known'
    split at known'
    · exact absurd rfl (RbTree.find_erase_some known').1
    · obtain rfl := Option.some.inj ((RbTree.find_set_self _ _ _).symm.trans known')
      exact ready

theorem mem_enqueueThread {thread other : Nat} {event event' : Event} :
    event' ∈ (tport.enqueueThread thread [event]).queues other ↔
      event' ∈ tport.queues other ∨ other = thread ∧ event' = event := by
  dsimp only [enqueueThread]
  split
  · rename_i same
    rw [same, List.mem_append, List.mem_singleton, and_iff_right rfl]
  · rename_i elsewhere
    rw [or_iff_left (fun same => elsewhere same.1)]

/-- The remove event of a destroyed endpoint is queued. -/
theorem Orderly.enqueueRemove (orderly : Orderly tport out) {id : EndpointId}
    {endpoint : Endpoint} (found : tport.endpoints.find id = some endpoint)
    (destroyed : endpoint.mDestroyed = true) (thread : Nat) (type : TopicType) :
    Orderly (tport.enqueueThread thread [.remove type id]) out := by
  have starts : ∀ {other event}, event ∈ (tport.enqueueThread thread [.remove type id]).queues other →
      event.Starts → event ∈ tport.queues other := by
    intro other event member starts
    rcases mem_enqueueThread.mp member with old | ⟨_, rfl⟩
    · exact old
    · exact starts.elim
  have awaits : ∀ {other stream}, (tport.enqueueThread thread [.remove type id]).Awaits other stream →
      tport.Awaits other stream := by
    rintro other stream ⟨⟨at_thread, at_type, member⟩, given⟩
    exact ⟨⟨at_thread, at_type, starts member trivial⟩, given⟩
  exact { orderly with
    unused := by
      intro other large
      obtain ⟨absent, ⟨items, silent, here⟩, alive, events⟩ := orderly.unused other large
      refine ⟨absent, ⟨items, silent, here⟩, alive, ?_⟩
      intro at_thread event member
      rcases mem_enqueueThread.mp member with old | ⟨_, rfl⟩
      · exact events at_thread event old
      · rintro rfl
        exact Nat.not_le_of_lt (orderly.used found) large
    each := by
      intro other endpoint' known
      have fits := orderly.each other endpoint' known
      exact { fits with
        unready := by
          intro unready
          obtain ⟨⟨items, silent, here⟩, once⟩ := fits.unready unready
          exact ⟨⟨items, silent, here⟩, once⟩
        starts := by
          intro at_thread event member same does
          exact fits.starts at_thread event (starts member does) same does
        removes := by
          intro at_thread event member same does
          rcases mem_enqueueThread.mp member with old | ⟨_, rfl⟩
          · exact fits.removes at_thread event old same does
          · obtain rfl : id = other := same
            obtain rfl := Option.some.inj (found.symm.trans known)
            exact destroyed }
    distinct := by
      intro other
      dsimp only [enqueueThread]
      split
      · rw [List.pairwise_append]
        refine ⟨orderly.distinct thread, List.pairwise_singleton _ _, ?_⟩
        intro first _ second inside _ does
        rw [List.mem_singleton.mp inside] at does
        exact does.elim
      · exact orderly.distinct other
    across := by
      intro left right apart first member second member' does does'
      exact orderly.across left right apart first (starts member does) second
        (starts member' does') does does'
    given := by
      intro at_thread at_type other member
      exact orderly.given at_thread at_type other (starts member trivial)
    completes := fun left right stream one two =>
      orderly.completes left right stream (awaits one) (awaits two)
    pending := by
      intro other stream one
      obtain ⟨tstream, pending⟩ := orderly.pending other stream (awaits one)
      exact ⟨tstream, pending.of_same (.of_endpoints (Nat.le_refl _) rfl rfl)⟩ }

/-- A destroy call queues the removal, unless one came before. -/
theorem Orderly.destroy (orderly : Orderly tport out) {type : TopicType} {id : EndpointId}
    (ran : tport.destroy type id = .ok next) : Orderly next (out ++ [.destroyed id]) := by
  obtain ⟨endpoint, read, ran⟩ := bind_ok ran
  have found := Heap.find_of_read read
  split at ran
  · rename_i already
    cases ran
    refine orderly.emit (Or.inr rfl) (orderly.used found) (fun same => by cases same) ?_
    intro _ endpoint' known
    obtain rfl := Option.some.inj (found.symm.trans known)
    exact already
  · obtain ⟨stream, _, ran⟩ := bind_ok ran
    obtain ⟨tstream, _, ran⟩ := bind_ok ran
    cases ran
    have known := RbTree.find_set_self tport.endpoints id { endpoint with mDestroyed := true }
    have like : Endpoint.Like { endpoint with mDestroyed := true } endpoint :=
      ⟨⟨rfl, rfl, rfl⟩, rfl⟩
    have flagged := orderly.flag found like rfl (fun _ => rfl) (fun _ => rfl)
    have queued := flagged.enqueueRemove known rfl tstream.mThread type
    refine queued.emit (Or.inr rfl) (orderly.used found) (fun same => by cases same) ?_
    intro _ endpoint' known'
    obtain rfl := Option.some.inj (known.symm.trans known')
    rfl

section Start

variable {after : Tport H S} {endpoint : Endpoint} {stream : StreamId} {event : Event}
  {thread : Nat} (given : endpoint.mTportStream = some stream)
  (waits : endpoint.mTportTopic = none) (unready : endpoint.mReady = false)
include given waits unready

/-- Somebody else waits for the completion of a stream. -/
theorem Pending.join {tstream : TportStream S} (pending : tport.Pending stream tstream)
    {id : EndpointId} (absent : tport.endpoints.find id = none)
    (endpoints : after.endpoints = tport.endpoints.set id endpoint)
    (found : after.streams.find stream =
      some { tstream with mRefCount := tstream.mRefCount + 1 })
    (grows : tport.fresh ≤ after.fresh) :
    after.Pending stream { tstream with mRefCount := tstream.mRefCount + 1 } where
  found := found
  nodes := pending.nodes
  small ttopic inside := Nat.lt_of_lt_of_le (pending.small ttopic inside) grows
  listed address name type other := by
    rw [pending.listed, endpoints]
    by_cases same : other = id
    · subst same
      simp only [RbTree.find_set_self, absent, Option.some.injEq, exists_eq_left', waits,
        reduceCtorEq, false_and, and_false, exists_false]
    · simp only [RbTree.find_set, same, ↓reduceIte]
  counted := by
    obtain ⟨waiters, distinct, members, total⟩ := pending.counted
    have new : id ∉ waiters := by
      intro inside
      obtain ⟨endpoint', known, _⟩ := (members id).mp inside
      exact Option.some_ne_none _ (known.symm.trans absent)
    refine ⟨id :: waiters, List.nodup_cons.mpr ⟨new, distinct⟩, ?_, ?_⟩
    · intro other
      rw [List.mem_cons, members, endpoints]
      by_cases same : other = id
      · subst same
        simp [Endpoint.waits, given, waits]
      · simp only [RbTree.find_set, same, ↓reduceIte, false_or]
    · simp only [total, List.length_cons]
      omega
  unready := pending.unready
  waiting other endpoint' known given' := by
    rw [endpoints] at known
    rcases RbTree.find_set_some known with ⟨rfl, rfl⟩ | ⟨_, old⟩
    · exact unready
    · exact pending.waiting other endpoint' old given'

omit given waits unready in
/-- A new stream waits for its completion, and nobody is on it. -/
theorem pending_new {tstream : TportStream S} (found : after.streams.find stream = some tstream)
    (fresh : tstream.mReady = false ∧ tstream.mTopics = [] ∧ tstream.mRefCount = 0)
    (nobody : ∀ other, after.streamOf other ≠ some stream) : after.Pending stream tstream where
  found := found
  nodes := by
    rw [fresh.2.1]
    exact .nil
  small ttopic inside := by
    rw [fresh.2.1] at inside
    cases inside
  listed address name type other := by
    apply iff_of_false
    · rintro ⟨ttopic, inside, _⟩
      rw [fresh.2.1] at inside
      cases inside
    · rintro ⟨endpoint, known, given, _⟩
      exact nobody other (Option.bind_eq_some_iff.mpr ⟨endpoint, known, given⟩)
  counted := by
    refine ⟨[], .nil, ?_, ?_⟩
    · intro other
      apply iff_of_false List.not_mem_nil
      rintro ⟨endpoint, known, waits⟩
      exact nobody other (Option.bind_eq_some_iff.mpr
        ⟨endpoint, known, Endpoint.given_of_waits waits⟩)
    · rw [fresh.2.1, fresh.2.2]
      rfl
  unready := fresh.1
  waiting other endpoint known given :=
    absurd (Option.bind_eq_some_iff.mpr ⟨endpoint, known, given⟩) (nobody other)

variable (orderly : Orderly tport out) (unmarked : endpoint.mRemoved = false)
  (once : endpoint.mRefCount = 1)
  (endpoints : after.endpoints = tport.endpoints.set tport.fresh endpoint)
  (streams : ∀ other, other ≠ stream → after.streams.find other = tport.streams.find other)
  (queues : ∀ other, after.queues other = (tport.enqueueThread thread [event]).queues other)
  (items : after.items = tport.items) (lines : after.mLog = tport.mLog)
  (grows : tport.fresh < after.fresh) (small : stream < after.fresh)
  (own : event.id = tport.fresh) (starts : event.Starts)
  (of_type : endpoint.mTopic.mType = event.type)

omit given waits unready in
include orderly endpoints in
theorem Orderly.start_find {other : EndpointId} {endpoint' : Endpoint}
    (known : after.endpoints.find other = some endpoint') :
    other = tport.fresh ∧ endpoint' = endpoint ∨
      other ≠ tport.fresh ∧ tport.endpoints.find other = some endpoint' := by
  rw [endpoints] at known
  rcases RbTree.find_set_some known with ⟨rfl, rfl⟩ | ⟨_, old⟩
  · exact Or.inl ⟨rfl, rfl⟩
  · exact Or.inr ⟨Nat.ne_of_lt (orderly.used old), old⟩

include orderly unmarked once endpoints streams queues items lines grows small own starts of_type

omit streams in
theorem Orderly.start_each (other : EndpointId) (endpoint' : Endpoint)
    (known : after.endpoints.find other = some endpoint') : after.Fits out other endpoint' := by
  have before : ∀ {at_thread event'}, event' ∈ after.queues at_thread →
      event' ∈ tport.queues at_thread ∨ event' = event := by
    intro at_thread event' member
    rw [queues] at member
    exact (mem_enqueueThread.mp member).imp_right And.right
  have gone : ∀ {other}, after.Gone other → tport.Gone other := by
    intro other away
    rw [Gone, lines] at away
    exact away
  rcases orderly.start_find endpoints known with ⟨rfl, rfl⟩ | ⟨apart, old⟩
  · obtain ⟨_, ⟨no_items, silent, here⟩, alive, events⟩ := orderly.unused tport.fresh (Nat.le_refl _)
    refine ⟨?_, ?_, ?_, ?_, ?_, ?_, fun told => absurd told alive⟩
    · intro at_stream given'
      obtain rfl := Option.some.inj (given.symm.trans given')
      exact small
    · refine fun _ => ⟨⟨?_, silent, fun away => here (gone away)⟩, once⟩
      rw [items]
      exact no_items
    · exact fun ready => Bool.noConfusion (ready.symm.trans unready)
    · exact fun marked => Bool.noConfusion (marked.symm.trans unmarked)
    · intro at_thread event' member same _
      rcases before member with old | rfl
      · exact absurd same (events at_thread event' old)
      · exact ⟨waits, of_type⟩
    · intro at_thread event' member same removes
      rcases before member with old | rfl
      · exact absurd same (events at_thread event' old)
      · exact absurd starts removes.not_starts
  · have fits := orderly.each other endpoint' old
    refine ⟨fun at_stream given' => Nat.lt_trans (fits.small at_stream given') grows, ?_, fits.ready,
      fits.marked, ?_, ?_, fits.destroyed⟩
    · intro unready'
      obtain ⟨⟨no_items, silent, here⟩, count⟩ := fits.unready unready'
      refine ⟨⟨?_, silent, fun away => here (gone away)⟩, count⟩
      rw [items]
      exact no_items
    · intro at_thread event' member same
      rcases before member with old | rfl
      · exact fits.starts at_thread event' old same
      · exact absurd (same.symm.trans own) apart
    · intro at_thread event' member same
      rcases before member with old | rfl
      · exact fits.removes at_thread event' old same
      · exact absurd (same.symm.trans own) apart

/-- A new endpoint, with the event that starts it. -/
theorem Orderly.start (joined : ∀ tstream, tport.Pending stream tstream →
      ∃ tstream', after.Pending stream tstream')
    (opened : event.Completes → (∀ other, tport.streamOf other ≠ some stream) ∧
      ∃ tstream, after.Pending stream tstream) : Orderly after out := by
  have before : ∀ {at_thread event'}, event' ∈ after.queues at_thread →
      event' ∈ tport.queues at_thread ∨ at_thread = thread ∧ event' = event := by
    intro at_thread event' member
    rw [queues] at member
    exact mem_enqueueThread.mp member
  have old_id : ∀ {at_thread event'}, event' ∈ tport.queues at_thread → event'.id ≠ event.id := by
    intro at_thread event' member same
    exact (orderly.unused tport.fresh (Nat.le_refl _)).2.2.2 at_thread event' member (same.trans own)
  have fresh_stream : after.streamOf tport.fresh = some stream := by
    rw [streamOf, endpoints, RbTree.find_set_self]
    exact given
  have old_stream : ∀ {other}, other ≠ tport.fresh → after.streamOf other = tport.streamOf other := by
    intro other apart
    rw [streamOf, endpoints, RbTree.find_set, if_neg apart]
    rfl
  have awaits : ∀ {other at_stream}, after.Awaits other at_stream → tport.Awaits other at_stream ∨
      other = tport.fresh ∧ at_stream = stream ∧ event.Completes := by
    rintro other at_stream ⟨⟨at_thread, type, member⟩, given'⟩
    rcases before member with old | ⟨_, rfl⟩
    · have apart : other ≠ tport.fresh := fun same => old_id old (same.trans own.symm)
      rw [old_stream apart] at given'
      exact Or.inl ⟨⟨at_thread, type, old⟩, given'⟩
    · obtain rfl : other = tport.fresh := own
      exact Or.inr ⟨rfl, Option.some.inj (given'.symm.trans fresh_stream), trivial⟩
  refine ⟨?_, ?_, orderly.start_each given waits unready unmarked once endpoints queues items lines
    grows small own starts of_type, ?_, ?_, ?_, ?_, orderly.inOrder, ?_, ?_, ?_⟩
  · intro other large
    obtain ⟨absent, ⟨no_items, silent, here⟩, alive, events⟩ :=
      orderly.unused other (Nat.le_trans (Nat.le_of_lt grows) large)
    have apart : other ≠ tport.fresh := (Nat.ne_of_lt (Nat.lt_of_lt_of_le grows large)).symm
    refine ⟨?_, ⟨?_, silent, ?_⟩, alive, ?_⟩
    · rw [endpoints, RbTree.find_set, if_neg apart]
      exact absent
    · rw [items]
      exact no_items
    · rw [Gone, lines]
      exact here
    · intro at_thread event' member
      rcases before member with old | ⟨_, rfl⟩
      · exact events at_thread event' old
      · exact fun same => apart (same.symm.trans own)
  · intro other there
    by_cases here : other = stream
    · rw [here]
      exact small
    · rw [streams other here] at there
      exact Nat.lt_trans (orderly.known other there) grows
  · intro other
    rw [queues]
    dsimp only [enqueueThread]
    split
    · rw [List.pairwise_append]
      refine ⟨orderly.distinct thread, List.pairwise_singleton _ _, ?_⟩
      intro first member second inside _ _
      rw [List.mem_singleton.mp inside]
      exact old_id member
    · exact orderly.distinct other
  · intro left right apart first member second member' does does'
    rcases before member with old | ⟨at_left, rfl⟩ <;> rcases before member' with old' | ⟨at_right, rfl⟩
    · exact orderly.across left right apart first old second old' does does'
    · exact old_id old
    · exact (old_id old').symm
    · exact absurd (at_left.trans at_right.symm) apart
  · rw [items]
    exact orderly.items
  · rw [items]
    exact orderly.kept
  · intro at_thread type other member
    rcases before member with old | ⟨_, rfl⟩
    · obtain ⟨at_stream, given'⟩ := orderly.given at_thread type other old
      have apart : other ≠ tport.fresh := fun same => old_id old (same.trans own.symm)
      exact ⟨at_stream, (old_stream apart).trans given'⟩
    · obtain rfl : other = tport.fresh := own
      exact ⟨stream, fresh_stream⟩
  · intro left right at_stream one two
    rcases awaits one with one | ⟨rfl, rfl, completes⟩ <;> rcases awaits two with two | ⟨rfl, same, completes'⟩
    · exact orderly.completes left right at_stream one two
    · exact absurd (same ▸ one.2) ((opened completes').1 left)
    · exact absurd two.2 ((opened completes).1 right)
    · rfl
  · intro other at_stream one
    rcases awaits one with one | ⟨rfl, rfl, completes⟩
    · obtain ⟨tstream, pending⟩ := orderly.pending other at_stream one
      by_cases here : at_stream = stream
      · subst here
        exact joined tstream pending
      · have others : ∀ other, other ≠ tport.fresh →
            after.endpoints.find other = tport.endpoints.find other := by
          intro other apart
          rw [endpoints, RbTree.find_set, if_neg apart]
        refine ⟨tstream, pending.of_same (.of_other (Nat.le_of_lt grows) (streams at_stream here)
          others ?_ ?_)⟩
        · intro endpoint' known
          exact absurd rfl (Nat.ne_of_lt (orderly.used known))
        · intro endpoint' known given'
          rw [endpoints, RbTree.find_set_self] at known
          obtain rfl := Option.some.inj known
          exact here (Option.some.inj (given'.symm.trans given))
    · exact (opened completes).2

end Start

/-- Finding a stream for a new endpoint may fail, or leaves the endpoint on one. -/
theorem Orderly.setStream (orderly : Orderly tport out) {type : TopicType} {endpoint : Endpoint}
    (of_type : endpoint.mTopic.mType = type) (waits : endpoint.mTportTopic = none)
    (unready : endpoint.mReady = false) (unmarked : endpoint.mRemoved = false)
    (once : endpoint.mRefCount = 1)
    (ran : { tport with
      endpoints := tport.endpoints.set tport.fresh endpoint
      fresh := tport.fresh + 1 }.setStream config type tport.fresh = .ok next) :
    Orderly next out := by
  have absent := (orderly.unused tport.fresh (Nat.le_refl _)).1
  obtain ⟨endpoint', known, ran⟩ := bind_ok ran
  obtain rfl : endpoint = endpoint' :=
    Option.some.inj ((RbTree.find_set_self _ _ _).symm.trans (Heap.find_of_read known))
  obtain ⟨⟨stream, middle⟩, looked, ran⟩ := bind_ok ran
  obtain ⟨tstream, read, ran⟩ := bind_ok ran
  have held := Except.ok.inj ran
  have found := Heap.find_of_read read
  have given : ({ endpoint with mTportStream := some stream } : Endpoint).mTportStream =
      some stream := rfl
  have next_endpoints : next.endpoints =
      middle.endpoints.set tport.fresh { endpoint with mTportStream := some stream } := by
    rw [← held]
    cases type <;> rfl
  have next_streams : next.streams =
      middle.streams.set stream { tstream with mRefCount := tstream.mRefCount + 1 } := by
    rw [← held]
    cases type <;> rfl
  have rest : next.queues = middle.queues ∧ next.items = middle.items ∧ next.mLog = middle.mLog ∧
      next.fresh = middle.fresh := by
    rw [← held]
    cases type <;> exact ⟨rfl, rfl, rfl, rfl⟩
  have other_streams : ∀ other, other ≠ stream →
      next.streams.find other = middle.streams.find other := by
    intro other apart
    rw [next_streams, RbTree.find_set, if_neg apart]
  have own_stream : next.streams.find stream =
      some { tstream with mRefCount := tstream.mRefCount + 1 } := by
    rw [next_streams, RbTree.find_set_self]
  obtain ⟨queues, items, lines, fresh⟩ := rest
  rcases findStream_cases looked with
    ⟨tstream', known, rfl⟩ | ⟨thread, mHandler, mStream, rfl, rfl⟩
  · have endpoints : next.endpoints =
        tport.endpoints.set tport.fresh { endpoint with mTportStream := some stream } := by
      rw [next_endpoints]
      exact RbTree.set_set _ _ _ _
    have grows : tport.fresh < next.fresh := by
      rw [fresh]
      exact Nat.lt_succ_self _
    have small : stream < next.fresh := by
      have there : (tport.streams.find stream).isSome := by
        rw [known]
        rfl
      exact Nat.lt_trans (orderly.known stream there) grows
    have own : (Event.add type tport.fresh).id = tport.fresh := rfl
    refine orderly.start given waits unready unmarked once endpoints other_streams
      (fun other => congrFun queues other) items lines grows small own trivial of_type ?_
      (fun completes => completes.elim)
    intro tstream'' pending
    obtain rfl := Option.some.inj (pending.found.symm.trans found)
    exact ⟨_, pending.join given waits unready absent endpoints own_stream (Nat.le_of_lt grows)⟩
  · -- The stream gets the address behind that of the endpoint.
    obtain rfl := Option.some.inj ((RbTree.find_set_self _ _ _).symm.trans found)
    have endpoints : next.endpoints = tport.endpoints.set tport.fresh
        { endpoint with mTportStream := some (tport.fresh + 1) } := by
      rw [next_endpoints]
      exact RbTree.set_set _ _ _ _
    have grows : tport.fresh + 1 < next.fresh := by
      rw [fresh]
      exact Nat.lt_succ_self _
    have alone : ∀ other, tport.streamOf other ≠ some (tport.fresh + 1) := by
      intro other given
      obtain ⟨endpoint', known, given⟩ := Option.bind_eq_some_iff.mp given
      exact Nat.not_lt_of_le (Nat.le_succ _)
        ((orderly.each other endpoint' known).small (tport.fresh + 1) given)
    let opened : Tport H S := { tport with
      streams := tport.streams.set (tport.fresh + 1) ⟨thread, mStream, 0, false, []⟩ }
    have pending : opened.Pending (tport.fresh + 1) ⟨thread, mStream, 0, false, []⟩ :=
      pending_new (RbTree.find_set_self _ _ _) ⟨rfl, rfl, rfl⟩ alone
    have streams : ∀ other, other ≠ tport.fresh + 1 →
        next.streams.find other = tport.streams.find other := by
      intro other apart
      rw [other_streams other apart]
      exact (RbTree.find_set _ _ _ _).trans (if_neg apart)
    have joined := pending.join given waits unready absent endpoints own_stream
      (Nat.le_of_lt (Nat.lt_of_succ_lt grows))
    have own : (Event.complete type tport.fresh).id = tport.fresh := rfl
    exact orderly.start given waits unready unmarked once endpoints streams
      (fun other => congrFun queues other) items lines (Nat.lt_of_succ_lt grows) grows own trivial
      of_type (fun _ _ => ⟨_, joined⟩) (fun _ => ⟨alone, _, joined⟩)

theorem Orderly.create (orderly : Orderly tport out) {type : TopicType} {topic0 : CString}
    {mReadyCb : Bool} (ran : tport.create config type topic0 mReadyCb = .ok next) :
    Orderly next out := by
  unfold Tport.create at ran
  split at ran
  · cases ran
    exact orderly
  · rename_i topic made
    exact orderly.setStream (Topic.create_mType made) rfl rfl rfl rfl ran

end Sbf.Tport
