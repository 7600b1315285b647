import Sbf.CompletionFrames

set_option autoImplicit false

namespace Sbf

open Octets Topics

/-- A ready endpoint, with the reference of its callback if it has one. -/
def Endpoint.readied (endpoint : Endpoint) : Endpoint :=
  { endpoint with
    mReady := true
    mRefCount := if endpoint.called then endpoint.mRefCount + 1 else endpoint.mRefCount }

namespace Tport

variable {H S : Type} {tport next : Tport H S} {out : List Notice}

theorem ready_eq {id : EndpointId} {endpoint : Endpoint}
    (found : tport.endpoints.find id = some endpoint) :
    tport.ready id = .ok { tport with
      endpoints := tport.endpoints.set id endpoint.readied
      items := if endpoint.called then tport.items ++ [id] else tport.items } := by
  simp only [ready, Heap.read_some found, bind, Except.bind, Endpoint.readied, Endpoint.called]
  split
  · rename_i called
    simp only [called, ↓reduceIte]
    rfl
  · rename_i silent
    simp only [silent]
    rfl

theorem release_eq {id : EndpointId} {endpoint : Endpoint}
    (found : tport.endpoints.find id = some endpoint) :
    tport.release id = .ok { tport with
      endpoints := if endpoint.mRefCount - 1 = 0 then tport.endpoints.erase id
        else tport.endpoints.set id { endpoint with mRefCount := endpoint.mRefCount - 1 } } := by
  simp only [release, Heap.read_some found, bind, Except.bind]
  split <;> rfl

theorem Orderly.used (orderly : Orderly tport out) {id : EndpointId} {endpoint : Endpoint}
    (found : tport.endpoints.find id = some endpoint) : id < tport.fresh := by
  by_contra large
  have absent := (orderly.unused id (Nat.not_lt.mp large)).1
  exact Option.some_ne_none _ (found.symm.trans absent)

/-- Nobody on a stream that waits for its completion is ready. -/
theorem Orderly.awaited_unready (orderly : Orderly tport out) {id other : EndpointId}
    {endpoint : Endpoint} {stream : StreamId} (awaits : tport.Awaits other stream)
    (found : tport.endpoints.find id = some endpoint)
    (given : endpoint.mTportStream = some stream) : endpoint.mReady = false := by
  obtain ⟨_, pending⟩ := orderly.pending other stream awaits
  exact pending.waiting id endpoint found given

theorem take_sublist (thread : Nat) (event : Event) (other : Nat) :
    ((tport.take thread event).queues other).Sublist (tport.queues other) := by
  dsimp only [take]
  split
  · rename_i same
    rw [same]
    exact List.erase_sublist
  · exact List.Sublist.refl _

/-- Taking an event changes nothing else. -/
theorem Orderly.take (orderly : Orderly tport out) {thread : Nat} {event : Event}
    (member : event ∈ tport.queues thread) : Orderly (tport.take thread event) out := by
  have used : event.id < tport.fresh := by
    by_contra large
    exact (orderly.unused event.id (Nat.not_lt.mp large)).2.2.2 thread event member rfl
  have touches : Touches event.id tport (tport.take thread event) :=
    ⟨used, Nat.le_refl _, fun _ there => there, fun _ _ => rfl,
      fun endpoint found => ⟨endpoint, found, rfl⟩,
      fun _ _ inside => inside, orderly.items, fun _ _ gone => gone, take_sublist thread event⟩
  refine orderly.touch touches ?_ (orderly.kept event.id) ?_
  · intro endpoint found
    have fits := orderly.each event.id endpoint found
    exact { fits with
      unready := fun unready => by
        obtain ⟨⟨items, silent, here⟩, once⟩ := fits.unready unready
        exact ⟨⟨items, silent, here⟩, once⟩
      starts := fun at_thread other inside =>
        fits.starts at_thread other ((take_sublist thread event at_thread).subset inside)
      removes := fun at_thread other inside =>
        fits.removes at_thread other ((take_sublist thread event at_thread).subset inside) }
  · intro other stream _ _
    exact (SameAt.of_endpoints touches.fresh rfl rfl).keeps

/-- An endpoint is started by one event only. -/
theorem Orderly.alone (orderly : Orderly tport out) {thread : Nat} {event : Event}
    (member : event ∈ tport.queues thread) (starts : event.Starts) (other : Nat) (event' : Event)
    (member' : event' ∈ (tport.take thread event).queues other) (starts' : event'.Starts) :
    event'.id ≠ event.id := by
  dsimp only [Tport.take] at member'
  split at member'
  · have rotated := (List.perm_cons_erase member).pairwise_iff
      (fun apart right left => (apart left right).symm) |>.mp (orderly.distinct thread)
    exact ((List.pairwise_cons.mp rotated).1 event' member' starts starts').symm
  · rename_i elsewhere
    exact orderly.across other thread elsewhere event' member' event member starts' starts

section SetEndpoint

variable {id : EndpointId} {endpoint after : Endpoint} (orderly : Orderly tport out)
  (found : tport.endpoints.find id = some endpoint)
include orderly found

/-- An endpoint gets other flags. -/
theorem Orderly.flag (like : after.Like endpoint) (count : after.mRefCount = endpoint.mRefCount)
    (marked : after.mRemoved = true → after.mDestroyed = true)
    (destroyed : endpoint.mDestroyed = true → after.mDestroyed = true) :
    Orderly { tport with endpoints := tport.endpoints.set id after } out := by
  have fits := orderly.each id endpoint found
  have touches : Touches id tport { tport with endpoints := tport.endpoints.set id after } := by
    refine ⟨orderly.used found, Nat.le_refl _, fun _ there => there, ?_, ?_,
      fun _ _ inside => inside, orderly.items, fun _ _ gone => gone, fun _ => List.Sublist.refl _⟩
    · intro other apart
      exact (RbTree.find_set _ _ _ _).trans (if_neg apart)
    · intro endpoint' found'
      obtain rfl := Option.some.inj ((RbTree.find_set_self _ _ _).symm.trans found')
      exact ⟨endpoint, found, like.stream⟩
  refine orderly.touch touches ?_ (orderly.kept id) ?_
  · intro endpoint' found'
    obtain rfl := Option.some.inj ((RbTree.find_set_self _ _ _).symm.trans found')
    refine ⟨?_, ?_, ?_, marked, ?_, ?_, ?_⟩
    · rw [like.stream]
      exact fits.small
    · rw [like.ready, count]
      intro unready
      obtain ⟨⟨items, silent, here⟩, once⟩ := fits.unready unready
      exact ⟨⟨items, silent, here⟩, once⟩
    · rw [like.ready, like.node]
      exact fits.ready
    · rw [like.node, like.topic]
      exact fits.starts
    · exact fun thread event member same removes =>
        destroyed (fits.removes thread event member same removes)
    · exact fun told => destroyed (fits.destroyed told)
  · intro other stream _ _
    exact (SameAt.of_like touches.fresh rfl found like rfl).keeps

/-- An endpoint that has been added becomes ready, unless its stream waits. -/
theorem Orderly.ready (unready : endpoint.mReady = false) (attached : endpoint.mTportTopic ≠ none)
    (apart : ∀ other stream, tport.Awaits other stream → endpoint.mTportStream ≠ some stream) :
    Orderly { tport with
      endpoints := tport.endpoints.set id endpoint.readied
      items := if endpoint.called then tport.items ++ [id] else tport.items } out := by
  have fits := orderly.each id endpoint found
  obtain ⟨untouched, _⟩ := fits.unready unready
  have touches : Touches id tport { tport with
      endpoints := tport.endpoints.set id endpoint.readied
      items := if endpoint.called then tport.items ++ [id] else tport.items } := by
    refine ⟨orderly.used found, Nat.le_refl _, fun _ there => there, ?_, ?_, ?_, ?_,
      fun _ _ gone => gone, fun _ => List.Sublist.refl _⟩
    · intro other differs
      exact (RbTree.find_set _ _ _ _).trans (if_neg differs)
    · intro endpoint' found'
      obtain rfl := Option.some.inj ((RbTree.find_set_self _ _ _).symm.trans found')
      exact ⟨endpoint, found, rfl⟩
    · intro other differs inside
      dsimp only at inside
      split at inside
      · exact (List.mem_append.mp inside).resolve_right (mt List.mem_singleton.mp differs)
      · exact inside
    · dsimp only
      split
      · rw [List.nodup_append]
        refine ⟨orderly.items, List.nodup_singleton _, ?_⟩
        rintro left inside right here rfl
        rw [List.mem_singleton.mp here] at inside
        exact untouched.items inside
      · exact orderly.items
  refine orderly.touch touches ?_ (fun _ => untouched.silent) ?_
  · intro endpoint' found'
    obtain rfl := Option.some.inj ((RbTree.find_set_self _ _ _).symm.trans found')
    exact ⟨fits.small, fun clash => Bool.noConfusion clash, fun _ => attached, fits.marked,
      fits.starts, fits.removes, fits.destroyed⟩
  · intro other stream awaits _
    refine (SameAt.of_other touches.fresh rfl touches.others ?_ ?_).keeps
    · intro endpoint' found'
      obtain rfl := Option.some.inj (found.symm.trans found')
      exact apart other stream awaits
    · intro endpoint' found'
      obtain rfl := Option.some.inj ((RbTree.find_set_self _ _ _).symm.trans found')
      exact apart other stream awaits

end SetEndpoint

end Tport

end Sbf
