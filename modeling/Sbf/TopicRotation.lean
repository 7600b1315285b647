import Sbf.StepSequences
import Sbf.TopicNodes

set_option autoImplicit false

namespace Sbf

open Octets

namespace TportTopic

/-- A node as the events of its subscriptions and the dispatched messages make it:
each subscription is inserted once and removed once, and `sbfHandlerFindTopic` drops a
message when there are none. -/
inductive Reached : TportTopic → Prop where
  | new (address : Nat) (topic : CString) : Reached (new address topic)
  | added {ttopic : TportTopic} (id : EndpointId) : Reached ttopic → id ∉ ttopic.mSubs →
      Reached (ttopic.insertTail id .sub)
  | removed {ttopic : TportTopic} (id : EndpointId) : Reached ttopic → id ∈ ttopic.mSubs →
      Reached (ttopic.unlink id .sub)
  | message {ttopic after : TportTopic} {payload : Bytes} {dispatch : Dispatch} :
      Reached ttopic → ttopic.mSubs ≠ [] →
      ttopic.dispatchMessage payload = .ok (after, dispatch) → Reached after

theorem Linked.sound {ttopic : TportTopic} (linked : ttopic.Linked) : ttopic.Sound :=
  ⟨linked.distinct .sub, linked.next⟩

/-- A dispatch moves `mNext` behind the subscription it serves first. -/
theorem dispatchMessage_next {ttopic after : TportTopic} {payload : Bytes} {dispatch : Dispatch}
    (ran : ttopic.dispatchMessage payload = .ok (after, dispatch)) :
    ∃ first, ttopic.mNext.or ttopic.mSubs.head? = some first ∧
      Tailq.cycle ttopic.mSubs first ttopic.mSubs.length first = some dispatch.served ∧
      after = { ttopic with mNext := Tailq.next ttopic.mSubs first } := by
  unfold dispatchMessage at ran
  split at ran
  case h_1 => cases ran
  case h_2 first chosen =>
      split at ran
      case h_1 => cases ran
      case h_2 served visited =>
          cases ran
          exact ⟨first, chosen, visited, rfl⟩

theorem Linked.message {ttopic after : TportTopic} {payload : Bytes} {dispatch : Dispatch}
    (linked : ttopic.Linked)
    (ran : ttopic.dispatchMessage payload = .ok (after, dispatch)) : after.Linked := by
  obtain ⟨first, _, _, rfl⟩ := dispatchMessage_next ran
  exact ⟨linked.distinct, fun sub pointer => Tailq.next_mem _ _ _ pointer⟩

/-- The position stays inside the list along every run. -/
theorem Reached.linked {ttopic : TportTopic} (reached : Reached ttopic) : ttopic.Linked := by
  induction reached with
  | new address topic => exact new_linked address topic
  | added id _ fresh linked => exact linked.insertTail fresh
  | removed id _ _ linked => exact linked.unlink id .sub
  | message _ _ ran linked => exact linked.message ran

/-- One message, with its dispatch as the output. -/
def deliver (payload : Bytes) : Step Fault TportTopic Dispatch := fun ttopic =>
  (ttopic.dispatchMessage payload).map (fun done => (done.1, [done.2]))

/-- Messages without an event of a subscription in between. -/
def deliverAll (payloads : List Bytes) : Step Fault TportTopic Dispatch :=
  Step.all (payloads.map deliver)

theorem deliver_ok {ttopic after : TportTopic} {payload : Bytes} {dispatch : Dispatch}
    (ran : ttopic.dispatchMessage payload = .ok (after, dispatch)) :
    deliver payload ttopic = .ok (after, [dispatch]) := by
  simp only [deliver, ran, Except.map]

/-- The first subscriptions of consecutive messages are those that one round of the
list visits: the induction is on that round. -/
theorem deliverAll_firsts (start : SubId) (fuel : Nat) {ttopic : TportTopic} {first : SubId}
    {visited : List SubId} {payloads : List Bytes} (linked : ttopic.Linked)
    (chosen : ttopic.mNext.or ttopic.mSubs.head? = some first)
    (run : Tailq.cycle ttopic.mSubs start fuel first = some visited)
    (all : payloads.length = visited.length) :
    ∃ after dispatches, deliverAll payloads ttopic = .ok (after, dispatches) ∧
      dispatches.map (·.served.head?) = visited.map some := by
  induction fuel generalizing ttopic first visited payloads with
  | zero => cases run
  | succ fuel ih =>
      have subscribed : ttopic.mSubs ≠ [] := by
        intro nothing
        rw [Tailq.cycle, Tailq.nextAround, Tailq.next, nothing] at run
        cases run
      unfold Tailq.cycle at run
      split at run
      case h_1 => cases run
      case h_2 y around =>
          have heads : ∃ rest, visited = first :: rest ∧
              (rest = [] ∨ Tailq.cycle ttopic.mSubs start fuel y = some rest) := by
            split at run
            case isTrue =>
                cases run
                exact ⟨[], rfl, Or.inl rfl⟩
            case isFalse =>
                obtain ⟨rest, more, rfl⟩ := Option.map_eq_some_iff.mp run
                exact ⟨rest, rfl, Or.inr more⟩
          obtain ⟨rest, rfl, further⟩ := heads
          cases payloads with
          | nil => cases all
          | cons payload payloads =>
              obtain ⟨next, served, ran, _, _⟩ :=
                ttopic.dispatchMessage_serves payload linked.sound subscribed
              obtain ⟨first', chosen', visits, moved⟩ := dispatchMessage_next ran
              obtain rfl : first = first' := Option.some.inj (chosen.symm.trans chosen')
              have begins : served.head? = some first := Tailq.cycle_head visits
              have follows : next.or ttopic.mSubs.head? = some y := by
                have successor : next = Tailq.next ttopic.mSubs first := by
                  injection moved
                rw [successor, ← around, Tailq.nextAround]
                cases Tailq.next ttopic.mSubs first <;> rfl
              have counted : payloads.length = rest.length := by simpa using all
              obtain ⟨after, dispatches, delivered, firsts⟩ :
                  ∃ after dispatches,
                    deliverAll payloads { ttopic with mNext := next } = .ok (after, dispatches) ∧
                    dispatches.map (·.served.head?) = rest.map some := by
                cases further with
                | inl none_left =>
                    subst none_left
                    obtain rfl := List.length_eq_zero_iff.mp counted
                    exact ⟨_, [], rfl, rfl⟩
                | inr more => exact ih (linked.message ran) follows more counted
              refine ⟨after, ⟨ttopic.mTopic.chars, payload, served⟩ :: dispatches, ?_, ?_⟩
              · exact Step.andThen_ok_ok (deliver_ok ran) delivered
              · rw [List.map_cons, List.map_cons, begins, firsts]

/-- Whatever subscriptions have come and gone, `mNext` is null or on the list, a
message reaches every subscription once, and of as many consecutive messages as there are
subscriptions each is the first one's once. -/
theorem Reached.rotates {ttopic : TportTopic} (reached : Reached ttopic) :
    (ttopic.mNext = none ∨ ∃ sub ∈ ttopic.mSubs, ttopic.mNext = some sub) ∧
    (ttopic.mSubs ≠ [] → ∀ payload, ∃ after dispatch,
      ttopic.dispatchMessage payload = .ok (after, dispatch) ∧ after.mSubs = ttopic.mSubs ∧
      ∀ sub, dispatch.served.count sub = if sub ∈ ttopic.mSubs then 1 else 0) ∧
    ∀ payloads : List Bytes, payloads.length = ttopic.mSubs.length →
      ∃ after dispatches, deliverAll payloads ttopic = .ok (after, dispatches) ∧
        ∀ sub, (dispatches.map (·.served.head?)).count (some sub) =
          if sub ∈ ttopic.mSubs then 1 else 0 := by
  have linked := reached.linked
  have distinct := linked.sound.distinct
  have once : ∀ {served : List SubId}, served.Perm ttopic.mSubs → ∀ sub,
      served.count sub = if sub ∈ ttopic.mSubs then 1 else 0 := by
    intro served perm sub
    rw [perm.count_eq]
    exact List.Nodup.count distinct
  refine ⟨?_, ?_, ?_⟩
  · cases pointer : ttopic.mNext with
    | none => exact Or.inl rfl
    | some sub => exact Or.inr ⟨sub, linked.next sub pointer, rfl⟩
  · intro subscribed payload
    obtain ⟨next, served, ran, perm, _⟩ :=
      ttopic.dispatchMessage_serves payload linked.sound subscribed
    exact ⟨_, _, ran, rfl, once perm⟩
  · intro payloads all
    by_cases subscribed : ttopic.mSubs = []
    · rw [subscribed] at all ⊢
      obtain rfl := List.length_eq_zero_iff.mp all
      exact ⟨ttopic, [], rfl, fun sub => rfl⟩
    · obtain ⟨next, served, ran, perm, _⟩ :=
        ttopic.dispatchMessage_serves [] linked.sound subscribed
      obtain ⟨first, chosen, visits, _⟩ := dispatchMessage_next ran
      obtain ⟨after, dispatches, delivered, firsts⟩ := deliverAll_firsts first _ linked chosen
        visits (all.trans perm.length_eq.symm)
      refine ⟨after, dispatches, delivered, ?_⟩
      intro sub
      rw [firsts, List.count_map_of_injective _ _ (Option.some_injective _)]
      exact once perm sub

/-- Two subscriptions take turns. -/
theorem rotates_two : (((new 1 .empty).insertTail 4 .sub).insertTail 7 .sub).mSubs = [4, 7] ∧
    ∃ after dispatches,
      deliverAll [[1], [2]] (((new 1 .empty).insertTail 4 .sub).insertTail 7 .sub) =
        .ok (after, dispatches) ∧
      ∀ sub, (dispatches.map (·.served.head?)).count (some sub) =
        if sub ∈ (((new 1 .empty).insertTail 4 .sub).insertTail 7 .sub).mSubs then 1 else 0 := by
  have reached : Reached (((new 1 .empty).insertTail 4 .sub).insertTail 7 .sub) :=
    .added 7 (.added 4 (.new 1 .empty) (by decide)) (by decide)
  exact ⟨rfl, reached.rotates.2.2 [[1], [2]] rfl⟩

end TportTopic

end Sbf
