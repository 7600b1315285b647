import Sbf.CompletionCalls

set_option autoImplicit false

namespace Sbf.Tport

open Octets Topics

variable {H S : Type} {config : TportConfig H S} {tport next : Tport H S} {out : List Notice}

/-- Endpoints have become ready, and nothing else has changed. -/
structure Woken (ids : List EndpointId) (before after : Tport H S) : Prop where
  shape : after = { before with endpoints := after.endpoints, items := after.items }
  others : ∀ other, other ∉ ids → after.endpoints.find other = before.endpoints.find other ∧
    after.items.count other = before.items.count other
  each : ∀ other ∈ ids, ∀ endpoint, before.endpoints.find other = some endpoint →
    after.endpoints.find other = some endpoint.readied ∧
      after.items.count other = before.items.count other + if endpoint.called then 1 else 0

theorem Woken.refl (tport : Tport H S) : Woken [] tport tport :=
  ⟨rfl, fun _ _ => ⟨rfl, rfl⟩, fun _ inside => absurd inside List.not_mem_nil⟩

theorem Woken.trans {left right : List EndpointId} {first second third : Tport H S}
    (distinct : (left ++ right).Nodup) (one : Woken left first second)
    (two : Woken right second third) : Woken (left ++ right) first third where
  shape := by
    rw [two.shape, one.shape]
  others other outside := by
    obtain ⟨not_left, not_right⟩ := not_or.mp (mt List.mem_append.mpr outside)
    obtain ⟨found, count⟩ := one.others other not_left
    obtain ⟨found', count'⟩ := two.others other not_right
    exact ⟨found'.trans found, count'.trans count⟩
  each other inside endpoint found := by
    obtain ⟨_, _, disjoint⟩ := List.nodup_append.mp distinct
    by_cases here : other ∈ left
    · have elsewhere : other ∉ right := fun there => disjoint other here other there rfl
      obtain ⟨found', count⟩ := two.others other elsewhere
      obtain ⟨readied, more⟩ := one.each other here endpoint found
      exact ⟨found'.trans readied, count.trans more⟩
    · have there : other ∈ right := (List.mem_append.mp inside).resolve_left here
      obtain ⟨found', count⟩ := one.others other here
      obtain ⟨readied, more⟩ := two.each other there endpoint (found'.trans found)
      exact ⟨readied, by rw [more, count]⟩

/-- Endpoints that have been added but not made ready, on streams that do not wait. -/
structure Asleep (tport : Tport H S) (out : List Notice) (ids : List EndpointId) : Prop where
  orderly : Orderly tport out
  distinct : ids.Nodup
  each : ∀ id ∈ ids, ∃ endpoint, tport.endpoints.find id = some endpoint ∧
    endpoint.mReady = false ∧ endpoint.mTportTopic ≠ none ∧
      ∀ other stream, tport.Awaits other stream → endpoint.mTportStream ≠ some stream

/-- The removal of an endpoint has been deferred. -/
def Marked (tport : Tport H S) (id : EndpointId) : Prop :=
  ∃ endpoint, tport.endpoints.find id = some endpoint ∧ endpoint.mRemoved = true

/-- What comes of making endpoints ready: it fails if one of them has its removal deferred. -/
def Outcome (out : List Notice) (ids : List EndpointId) (tport : Tport H S)
    (result : Except Fault (Tport H S)) : Prop :=
  (∃ next, result = .ok next ∧ (∀ id ∈ ids, ¬ tport.Marked id) ∧ Woken ids tport next ∧
    Orderly next out) ∨
  (∃ fault, result = .error fault) ∧ ∃ id ∈ ids, tport.Marked id

theorem Woken.streamOf {ids : List EndpointId} (woken : Woken ids tport next)
    (other : EndpointId) (there : (tport.endpoints.find other).isSome) :
    next.streamOf other = tport.streamOf other := by
  obtain ⟨endpoint, found⟩ := Option.isSome_iff_exists.mp there
  by_cases inside : other ∈ ids
  · rw [Tport.streamOf, (woken.each other inside endpoint found).1, Tport.streamOf, found]
    rfl
  · rw [Tport.streamOf, (woken.others other inside).1, Tport.streamOf]

/-- The endpoints behind those that have become ready can still be made ready. -/
theorem Asleep.behind {left right : List EndpointId} (asleep : tport.Asleep out (left ++ right))
    (woken : Woken left tport next) (orderly : Orderly next out) : next.Asleep out right where
  orderly := orderly
  distinct := (List.nodup_append.mp asleep.distinct).2.1
  each := by
    intro id inside
    obtain ⟨_, _, disjoint⟩ := List.nodup_append.mp asleep.distinct
    have elsewhere : id ∉ left := fun there => disjoint id there id inside rfl
    obtain ⟨endpoint, found, unready, attached, apart⟩ :=
      asleep.each id (List.mem_append_right left inside)
    refine ⟨endpoint, (woken.others id elsewhere).1.trans found, unready, attached, ?_⟩
    rintro other stream ⟨⟨thread, type, member⟩, given⟩
    have queues : next.queues = tport.queues := by rw [woken.shape]
    rw [queues] at member
    obtain ⟨at_stream, before⟩ := asleep.orderly.given thread type other member
    have there : (tport.endpoints.find other).isSome := by
      obtain ⟨endpoint', known, _⟩ := Option.bind_eq_some_iff.mp before
      rw [known]
      rfl
    rw [woken.streamOf other there] at given
    exact apart other stream ⟨⟨thread, type, member⟩, given⟩

/-- One round of a loop along links. -/
def visit (alive : Nat → Tport H S → Bool) (body : Nat → Tport H S → Except Fault (Tport H S))
    (element : Nat) (tport : Tport H S) : Except Fault (Tport H S) := do
  let tport ← body element tport
  if alive element tport then return tport else throw .freed

theorem follow_cons (alive : Nat → Tport H S → Bool)
    (body : Nat → Tport H S → Except Fault (Tport H S)) (element : Nat) (rest : List Nat)
    (tport : Tport H S) :
    tport.follow alive body (element :: rest) =
      visit alive body element tport >>= follow alive body rest := by
  simp only [follow, visit, bind, Except.bind]
  cases body element tport with
  | error fault => rfl
  | ok middle =>
      dsimp only
      split <;> rfl

/-- A loop whose rounds wake their endpoints wakes all of them. -/
theorem follow_outcome {alive : Nat → Tport H S → Bool}
    {body : Nat → Tport H S → Except Fault (Tport H S)} {group : Nat → List EndpointId}
    {streams : Heap (TportStream S)} (elements : List Nat)
    (each : ∀ element ∈ elements, ∀ tport, tport.streams = streams →
      tport.Asleep out (group element) →
        Outcome out (group element) tport (visit alive body element tport))
    (same : tport.streams = streams) (asleep : tport.Asleep out (elements.flatMap group)) :
    Outcome out (elements.flatMap group) tport (tport.follow alive body elements) := by
  induction elements generalizing tport with
  | nil =>
      exact Or.inl ⟨tport, rfl, fun _ inside => absurd inside List.not_mem_nil, .refl tport,
        asleep.orderly⟩
  | cons element rest ih =>
      rw [List.flatMap_cons] at asleep ⊢
      rw [follow_cons]
      have first : tport.Asleep out (group element) :=
        ⟨asleep.orderly, (List.nodup_append.mp asleep.distinct).1,
          fun id inside => asleep.each id (List.mem_append_left _ inside)⟩
      rcases each element (by simp) tport same first with
        ⟨middle, ran, unmarked, woken, orderly⟩ | ⟨⟨fault, failed⟩, id, inside, marked⟩
      · have later := ih (fun other inside => each other (List.mem_cons_of_mem _ inside))
          (by rw [woken.shape]; exact same) (asleep.behind woken orderly)
        have elsewhere : ∀ id ∈ rest.flatMap group, middle.endpoints.find id =
            tport.endpoints.find id := by
          intro id inside
          obtain ⟨_, _, disjoint⟩ := List.nodup_append.mp asleep.distinct
          exact (woken.others id (fun there => disjoint id there id inside rfl)).1
        rw [ran]
        rcases later with ⟨last, ran', unmarked', woken', orderly'⟩ | ⟨failed, id, inside, marked⟩
        · refine Or.inl ⟨last, ran', ?_, woken.trans asleep.distinct woken', orderly'⟩
          intro id inside
          rcases List.mem_append.mp inside with here | there
          · exact unmarked id here
          · rw [Marked, ← elsewhere id there]
            exact unmarked' id there
        · refine Or.inr ⟨failed, id, List.mem_append_right _ inside, ?_⟩
          rw [Marked, ← elsewhere id inside]
          exact marked
      · rw [failed]
        exact Or.inr ⟨⟨fault, rfl⟩, id, List.mem_append_left _ inside, marked⟩

/-- A removal that was deferred frees the endpoint, and the loop cannot go on from it. -/
theorem completeEndpoint_frees {type : TopicType} {id : EndpointId} {endpoint : Endpoint}
    (found : tport.endpoints.find id = some endpoint) (marked : endpoint.mRemoved = true)
    (destroyed : endpoint.mDestroyed = true) (once : endpoint.mRefCount = 1)
    (ran : tport.completeEndpoint config type id = .ok next) : next.endpoints.find id = none := by
  have silent : endpoint.called = false := by rw [Endpoint.called, destroyed]; rfl
  have known := RbTree.find_set_self tport.endpoints id endpoint.readied
  have same : endpoint.readied.mRemoved = true := marked
  simp only [completeEndpoint, ready_eq found, silent, Bool.false_eq_true, ↓reduceIte,
    Heap.read_some known, same, removeEventCb, bind, Except.bind] at ran
  have ready : endpoint.readied.mReady = true := rfl
  simp only [ready, Bool.not_true, Bool.false_eq_true, ↓reduceIte] at ran
  obtain ⟨stream, middle, _, departs, released⟩ := remove_departs ran
  have known' : middle.endpoints.find id = some endpoint.readied := by
    rw [departs.endpoints]
    exact known
  have last : endpoint.readied.mRefCount - 1 = 0 := by
    simp [Endpoint.readied, silent, once]
  rw [release_eq known', if_pos last] at released
  cases released
  exact (RbTree.find_erase _ _ _).trans (if_pos rfl)

/-- The completion comes to one endpoint. -/
theorem visit_endpoint (type : TopicType) (id : EndpointId) (asleep : tport.Asleep out [id]) :
    Outcome out [id] tport (visit (fun id tport => (tport.endpoints.find id).isSome)
      (completeEndpoint config type) id tport) := by
  obtain ⟨endpoint, found, unready, attached, apart⟩ := asleep.each id (by simp)
  have fits := asleep.orderly.each id endpoint found
  cases marked : endpoint.mRemoved with
  | false =>
      have known := RbTree.find_set_self tport.endpoints id endpoint.readied
      have same : endpoint.readied.mRemoved = false := marked
      refine Or.inl ⟨{ tport with
        endpoints := tport.endpoints.set id endpoint.readied
        items := if endpoint.called then tport.items ++ [id] else tport.items }, ?_, ?_, ?_,
        asleep.orderly.ready found unready attached apart⟩
      · simp only [visit, completeEndpoint, ready_eq found, Heap.read_some known, same, bind,
          Except.bind, Bool.false_eq_true, ↓reduceIte, pure, Except.pure, known, Option.isSome_some]
      · intro other inside
        rw [List.mem_singleton.mp inside]
        rintro ⟨endpoint', found', marked'⟩
        obtain rfl := Option.some.inj (found.symm.trans found')
        exact Bool.noConfusion (marked.symm.trans marked')
      · refine ⟨rfl, ?_, ?_⟩
        · intro other outside
          have differs : other ≠ id := fun same => outside (by simp [same])
          refine ⟨(RbTree.find_set _ _ _ _).trans (if_neg differs), ?_⟩
          dsimp only
          split
          · simp [List.count_append, Ne.symm differs]
          · rfl
        · intro other inside endpoint' found'
          obtain rfl := List.mem_singleton.mp inside
          obtain rfl := Option.some.inj (found.symm.trans found')
          refine ⟨known, ?_⟩
          dsimp only
          split
          · simp [List.count_append]
          · rfl
  | true =>
      refine Or.inr ⟨?_, id, by simp, endpoint, found, marked⟩
      cases ran : completeEndpoint config type id tport with
      | error fault => exact ⟨fault, by simp only [visit, ran, bind, Except.bind]⟩
      | ok middle =>
          have freed := completeEndpoint_frees found marked (fits.marked marked)
            (fits.unready unready).2 ran
          refine ⟨.freed, ?_⟩
          simp only [visit, ran, freed, bind, Except.bind, Option.isSome_none, Bool.false_eq_true,
            ↓reduceIte]
          rfl

end Sbf.Tport
