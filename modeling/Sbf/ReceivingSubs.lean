import Sbf.ReceivedBuffers
import Sbf.TopicNodes

set_option autoImplicit false

/-! The subscriptions of the receive path: whose own reference is still held, and what
each of their events comes upon. -/

namespace Sbf

open Octets

namespace Topics

/-- The subscriptions on the nodes. -/
def attached (topics : List TportTopic) : List SubId := topics.flatMap (·.mSubs)

theorem mem_attached {topics : List TportTopic} {id : SubId} :
    id ∈ attached topics ↔ Serves topics id := List.mem_flatMap

/-- What one node contributes, before and after it changes or goes. -/
theorem attached_update {topics : List TportTopic} (addresses : (topics.map (·.address)).Nodup)
    {ttopic : TportTopic} (member : ttopic ∈ topics) (after : TportTopic)
    (same : after.address = ttopic.address) :
    ∃ others, (attached topics).Perm (ttopic.mSubs ++ others) ∧
      (attached (update topics after)).Perm (after.mSubs ++ others) ∧
      (attached (topics.filter (·.address ≠ ttopic.address))).Perm others := by
  obtain ⟨front, back, rfl⟩ := List.append_of_mem member
  have apart : ∀ other, other ∈ front ∨ other ∈ back → other.address ≠ ttopic.address := by
    intro other inside clash
    simp only [List.map_append, List.map_cons] at addresses
    have distinct := List.perm_middle.nodup_iff.mp addresses
    rw [List.nodup_cons, ← List.map_append] at distinct
    exact distinct.1 (clash ▸ List.mem_map_of_mem (List.mem_append.mpr inside))
  have kept : ∀ part : List TportTopic, (∀ other ∈ part, other.address ≠ ttopic.address) →
      update part after = part ∧ part.filter (·.address ≠ ttopic.address) = part := by
    intro part elsewhere
    constructor
    · refine (List.map_congr_left (g := id) ?_).trans (List.map_id part)
      intro other inside
      rw [if_neg (by rw [same]; exact elsewhere other inside)]
      rfl
    · apply List.filter_eq_self.mpr
      intro other inside
      simpa using elsewhere other inside
  obtain ⟨front_update, front_filter⟩ := kept front (fun other inside => apart other (Or.inl inside))
  obtain ⟨back_update, back_filter⟩ := kept back (fun other inside => apart other (Or.inr inside))
  have middle : ∀ here : List SubId, (attached front ++ (here ++ attached back)).Perm
      (here ++ (attached front ++ attached back)) := by
    intro here
    rw [← List.append_assoc, ← List.append_assoc]
    exact List.perm_append_comm.append_right _
  refine ⟨attached front ++ attached back, ?_, ?_, ?_⟩
  · simpa [attached] using middle ttopic.mSubs
  · have changed : update (front ++ ttopic :: back) after = front ++ after :: back := by
      simp only [update, List.map_append, List.map_cons] at front_update back_update ⊢
      rw [front_update, back_update, if_pos same.symm]
    rw [changed]
    simpa [attached] using middle after.mSubs
  · rw [List.filter_append, List.filter_cons_of_neg (by simp), front_filter, back_filter]
    simp [attached]

/-- There is one node less without a node. -/
theorem length_without {topics : List TportTopic} (addresses : (topics.map (·.address)).Nodup)
    {ttopic : TportTopic} (member : ttopic ∈ topics) :
    (topics.filter (·.address ≠ ttopic.address)).length + 1 = topics.length := by
  have once : topics.countP (·.address = ttopic.address) = 1 := by
    have one := List.count_eq_one_of_mem addresses (List.mem_map_of_mem member)
    rw [List.count, List.countP_map] at one
    rw [← one]
    refine List.countP_congr fun other _ => ?_
    simp
  have both := topics.length_eq_countP_add_countP (fun other => other.address = ttopic.address)
  rw [once] at both
  simp only [decide_eq_true_eq, List.countP_eq_length_filter] at both
  simp only [ne_eq]
  omega

end Topics

namespace Receiving

/-- The subscription of an add event. -/
def joining : SubEvent → Option SubId
  | .add id => some id
  | .remove _ => none

/-- Whose own reference is held: the add event is still to come, or it is on a node. -/
def held (events : List SubEvent) (topics : List TportTopic) : List SubId :=
  events.filterMap joining ++ Topics.attached topics

/-- Each remove event is behind the add event of its subscription. -/
def Ordered : List SubEvent → List SubId → Prop
  | [], _ => True
  | .add id :: rest, attached => Ordered rest (id :: attached)
  | .remove id :: rest, attached => id ∈ attached ∧ Ordered rest attached

theorem Ordered.mono {events : List SubEvent} {before after : List SubId}
    (kept : ∀ id, .remove id ∈ events → id ∈ before → id ∈ after)
    (ordered : Ordered events before) : Ordered events after := by
  induction events generalizing before after with
  | nil => trivial
  | cons event rest ih =>
      cases event with
      | add id =>
          refine ih ?_ ordered
          intro other removes inside
          rcases List.mem_cons.mp inside with rfl | inside
          · exact List.mem_cons_self
          · exact List.mem_cons_of_mem _ (kept other (List.mem_cons_of_mem _ removes) inside)
      | remove id =>
          exact ⟨kept id List.mem_cons_self ordered.1,
            ih (fun other removes => kept other (List.mem_cons_of_mem _ removes)) ordered.2⟩

theorem Ordered.add {events : List SubEvent} {attached : List SubId}
    (ordered : Ordered events attached) (id : SubId) : Ordered (events ++ [.add id]) attached := by
  induction events generalizing attached with
  | nil => trivial
  | cons event rest ih =>
      cases event with
      | add other => exact ih ordered
      | remove other => exact ⟨ordered.1, ih ordered.2⟩

theorem Ordered.remove {events : List SubEvent} {attached : List SubId}
    (ordered : Ordered events attached) (id : SubId)
    (there : id ∈ events.filterMap joining ∨ id ∈ attached) :
    Ordered (events ++ [.remove id]) attached := by
  induction events generalizing attached with
  | nil =>
      rcases there with impossible | inside
      · cases impossible
      · exact ⟨inside, trivial⟩
  | cons event rest ih =>
      cases event with
      | add other =>
          refine ih ordered ?_
          rcases there with waiting | inside
          · rcases List.mem_cons.mp waiting with rfl | later
            · exact Or.inr List.mem_cons_self
            · exact Or.inl later
          · exact Or.inr (List.mem_cons_of_mem _ inside)
      | remove other => exact ⟨ordered.1, ih ordered.2 there⟩

theorem Ordered.mem {events : List SubEvent} {attached : List SubId}
    (ordered : Ordered events attached) {id : SubId} (removes : .remove id ∈ events) :
    id ∈ events.filterMap joining ∨ id ∈ attached := by
  induction events generalizing attached with
  | nil => cases removes
  | cons event rest ih =>
      cases event with
      | add other =>
          rcases List.mem_cons.mp removes with impossible | later
          · cases impossible
          · rcases ih ordered later with waiting | inside
            · exact Or.inl (List.mem_cons_of_mem _ waiting)
            · rcases List.mem_cons.mp inside with rfl | inside
              · exact Or.inl List.mem_cons_self
              · exact Or.inr inside
      | remove other =>
          rcases List.mem_cons.mp removes with here | later
          · cases here
            exact Or.inr ordered.1
          · exact ih ordered.2 later

/-- What the subscriptions' memory, the thread's events and the nodes owe each other;
`users` are the subscriptions of the items. -/
structure SubsSound (subs : RefMemory ReceivingSub) (events : List SubEvent)
    (topics : List TportTopic) (users : List SubId) : Prop where
  counted : subs.Sound (fun id => (held events topics).count id + users.count id)
  once : (held events topics).Nodup
  ordered : Ordered events (Topics.attached topics)
  placed : ∀ ttopic ∈ topics, ∀ id ∈ ttopic.mSubs, ∃ sub, subs.find id = some sub ∧
    sub.mTportTopic = some ttopic.address
  waiting : ∀ id sub, subs.find id = some sub → id ∈ held events topics →
    events.count (.remove id) + sub.mRemoved.toNat = sub.mDestroyed.toNat
  released : ∀ id sub, subs.find id = some sub → id ∉ held events topics → sub.mDestroyed = true

theorem empty_subsSound : SubsSound .empty [] [] [] where
  counted := RefMemory.empty_sound
  once := List.nodup_nil
  ordered := trivial
  placed ttopic inside := by cases inside
  waiting id sub found := by cases found
  released id sub found := by cases found

section Subs

variable {subs : RefMemory ReceivingSub} {events : List SubEvent} {topics : List TportTopic}
  {users : List SubId} (sound : SubsSound subs events topics users)
include sound

theorem SubsSound.find_held (id : SubId) (inside : id ∈ held events topics) :
    ∃ sub, subs.find id = some sub := by
  apply Option.isSome_iff_exists.mp
  apply (sound.counted.find_isSome id).mpr
  have positive := List.count_pos_iff.mpr inside
  omega

theorem SubsSound.find_attached {id : SubId} (serves : Topics.Serves topics id) :
    ∃ sub, subs.find id = some sub :=
  sound.find_held id (List.mem_append_right _ (Topics.mem_attached.mpr serves))

theorem SubsSound.positive {id : SubId} {sub : ReceivingSub} (found : subs.find id = some sub) :
    0 < (held events topics).count id + users.count id :=
  (sound.counted.find_isSome id).mp (by rw [found]; rfl)

theorem SubsSound.users_perm {users' : List SubId} (same : users'.Perm users) :
    SubsSound subs events topics users' :=
  { sound with counted := sound.counted.congr (fun id => by rw [same.count_eq id]) }

/-- The nodes moved, with their subscriptions where they were. -/
theorem SubsSound.topics_shape {topics' : List TportTopic}
    (same : topics'.map Handler.shape = topics.map Handler.shape) :
    SubsSound subs events topics' users := by
  have attached : Topics.attached topics' = Topics.attached topics := by
    have lists := congrArg (fun shapes => shapes.flatMap (fun kept => kept.2.2.2)) same
    simpa only [Topics.attached, List.flatMap_map, Handler.shape] using lists
  have owed : held events topics' = held events topics := by rw [held, held, attached]
  refine ⟨?_, ?_, ?_, ?_, ?_, ?_⟩
  · rw [owed]
    exact sound.counted
  · rw [owed]
    exact sound.once
  · rw [attached]
    exact sound.ordered
  · intro ttopic inside id on
    have shaped : Handler.shape ttopic ∈ topics.map Handler.shape :=
      same ▸ List.mem_map_of_mem inside
    obtain ⟨before, member, agree⟩ := List.mem_map.mp shaped
    simp only [Handler.shape, Prod.mk.injEq] at agree
    rw [← agree.1]
    exact sound.placed before member id (agree.2.2.2 ▸ on)
  · rw [owed]
    exact sound.waiting
  · rw [owed]
    exact sound.released

/-- A subscription that is written keeps its references. -/
theorem SubsSound.written {id : SubId} {sub : ReceivingSub} (found : subs.find id = some sub)
    (f : ReceivingSub → ReceivingSub) :
    ∃ after, subs.modify f id = some after ∧
      after.Sound (fun id => (held events topics).count id + users.count id) ∧
      after.fresh = subs.fresh ∧
      ∀ other, after.find other = if other = id then some (f sub) else subs.find other := by
  obtain ⟨after, old, found', ran, counted, finds, _, fresh⟩ :=
    sound.counted.modify id (sound.positive found) f
  obtain rfl : old = sub := Option.some.inj (found'.symm.trans found)
  exact ⟨after, ran, counted, fresh, finds⟩

/-- A subscription that is written and stays on its node. -/
theorem SubsSound.stays {after : RefMemory ReceivingSub} {id : SubId} {sub : ReceivingSub}
    (found : subs.find id = some sub) {f : ReceivingSub → ReceivingSub}
    (node : (f sub).mTportTopic = sub.mTportTopic)
    (finds : ∀ other, after.find other = if other = id then some (f sub) else subs.find other)
    (ttopic : TportTopic) (inside : ttopic ∈ topics) (other : SubId) (on : other ∈ ttopic.mSubs) :
    ∃ sub, after.find other = some sub ∧ sub.mTportTopic = some ttopic.address := by
  obtain ⟨before, there, placed⟩ := sound.placed ttopic inside other on
  by_cases here : other = id
  · subst here
    obtain rfl : before = sub := Option.some.inj (there.symm.trans found)
    exact ⟨f before, by rw [finds, if_pos rfl], by rw [node, placed]⟩
  · exact ⟨before, by rw [finds, if_neg here, there], placed⟩

/-- A change of a subscription that leaves its node and its destruction alone. -/
theorem SubsSound.modify {id : SubId} {sub : ReceivingSub} (found : subs.find id = some sub)
    (f : ReceivingSub → ReceivingSub) (node : (f sub).mTportTopic = sub.mTportTopic)
    (destroyed : (f sub).mDestroyed = sub.mDestroyed) (removed : (f sub).mRemoved = sub.mRemoved) :
    ∃ after, subs.modify f id = some after ∧ SubsSound after events topics users ∧
      after.fresh = subs.fresh ∧
      ∀ other, after.find other = if other = id then some (f sub) else subs.find other := by
  obtain ⟨after, ran, counted, fresh, finds⟩ := sound.written found f
  have back : ∀ other changed, after.find other = some changed → ∃ before,
      subs.find other = some before ∧ changed.mTportTopic = before.mTportTopic ∧
      changed.mDestroyed = before.mDestroyed ∧ changed.mRemoved = before.mRemoved := by
    intro other changed there
    rw [finds] at there
    split at there
    · rename_i here
      rw [← Option.some.inj there, here]
      exact ⟨sub, found, node, destroyed, removed⟩
    · exact ⟨changed, there, rfl, rfl, rfl⟩
  refine ⟨after, ran, ⟨counted, sound.once, sound.ordered, ?_, ?_, ?_⟩, fresh, finds⟩
  · exact sound.stays found node finds
  · intro other changed there owed
    obtain ⟨before, there, _, same, same'⟩ := back other changed there
    rw [same, same']
    exact sound.waiting other before there owed
  · intro other changed there free
    obtain ⟨before, there, _, same, _⟩ := back other changed there
    rw [same]
    exact sound.released other before there free

/-- `sbfSub_create` -/
theorem SubsSound.create (sub : ReceivingSub) (destroyed : sub.mDestroyed = false)
    (removed : sub.mRemoved = false) :
    SubsSound (subs.obtain sub) (events ++ [.add subs.fresh]) topics users := by
  have absent : (held events topics).count subs.fresh + users.count subs.fresh = 0 :=
    sound.counted.missing subs.fresh (sound.counted.fresh subs.fresh (Nat.le_refl _))
  have unheld : subs.fresh ∉ held events topics := by
    rw [← List.count_eq_zero]
    omega
  have joined : (held (events ++ [.add subs.fresh]) topics).Perm
      (subs.fresh :: held events topics) := by
    have one : ([.add subs.fresh] : List SubEvent).filterMap joining = [subs.fresh] := rfl
    simp only [held, List.filterMap_append, one, List.append_assoc]
    exact List.perm_middle
  have owes : ∀ id, (held (events ++ [.add subs.fresh]) topics).count id =
      (held events topics).count id + if id = subs.fresh then 1 else 0 := by
    intro id
    rw [joined.count_eq, List.count_cons]
    simp only [beq_iff_eq, eq_comm (a := subs.fresh)]
  have silent : ∀ id, (events ++ [SubEvent.add subs.fresh]).count (SubEvent.remove id) =
      events.count (SubEvent.remove id) := by
    intro id
    rw [List.count_append]
    rfl
  have quiet : events.count (.remove subs.fresh) = 0 := by
    rw [List.count_eq_zero]
    intro removes
    exact unheld (List.mem_append.mpr (sound.ordered.mem removes))
  refine ⟨?_, ?_, sound.ordered.add _, ?_, ?_, ?_⟩
  · apply sound.counted.obtain
    intro id
    rw [owes]
    omega
  · rw [joined.nodup_iff, List.nodup_cons]
    exact ⟨unheld, sound.once⟩
  · intro ttopic inside id on
    obtain ⟨before, there, placed⟩ := sound.placed ttopic inside id on
    refine ⟨before, ?_, placed⟩
    rw [RefMemory.find_obtain, if_neg, there]
    rintro rfl
    exact unheld (List.mem_append_right _ (Topics.mem_attached.mpr ⟨ttopic, inside, on⟩))
  · intro id found there owed
    rw [silent]
    rw [RefMemory.find_obtain] at there
    split at there
    · rename_i here
      cases there
      rw [here, quiet, removed, destroyed]
      rfl
    · rename_i elsewhere
      refine sound.waiting id found there ?_
      rcases List.mem_cons.mp (joined.mem_iff.mp owed) with here | inside
      · exact absurd here elsewhere
      · exact inside
  · intro id found there free
    rw [joined.mem_iff, List.mem_cons, not_or] at free
    rw [RefMemory.find_obtain, if_neg free.1] at there
    exact sound.released id found there free.2

/-- An item takes a reference to a subscription. -/
theorem SubsSound.addRef {id : SubId} {sub : ReceivingSub} (found : subs.find id = some sub)
    {users' : List SubId} (more : users'.Perm (id :: users)) :
    ∃ after, subs.addRef id = some after ∧ SubsSound after events topics users' ∧
      RefMemory.Same subs after := by
  obtain ⟨after, ran, counted, same⟩ := sound.counted.addRef id
    (fun other => (held events topics).count other + users'.count other)
    (sound.positive found) (by
      intro other
      rw [more.count_eq, List.count_cons]
      simp only [beq_iff_eq, eq_comm (a := id)]
      omega)
  refine ⟨after, ran, ⟨counted, sound.once, sound.ordered, ?_, ?_, ?_⟩, same⟩
  · simpa only [same.find] using sound.placed
  · simpa only [same.find] using sound.waiting
  · simpa only [same.find] using sound.released

/-- The memory after a reference to a subscription has been dropped. -/
structure Dropped (before after : RefMemory ReceivingSub) (id : SubId) : Prop where
  found : ∀ other sub, after.find other = some sub → before.find other = some sub
  others : ∀ other, other ≠ id → after.find other = before.find other
  fresh : after.fresh = before.fresh

theorem SubsSound.drop_ok (id : SubId) (refs' : Nat → Nat)
    (less : ∀ other, (held events topics).count other + users.count other =
      refs' other + if other = id then 1 else 0) :
    ∃ after object, subs.drop id = some (after, object) ∧ after.Sound refs' ∧
      Dropped subs after id := by
  have here := less id
  rw [if_pos rfl] at here
  obtain ⟨after, sub, _, counted, fresh, ⟨_, ran, same⟩ | ⟨_, ran, finds, _⟩⟩ :=
    sound.counted.drop id refs' (by omega) less
  · exact ⟨after, none, ran, counted, fun other sub there => by rwa [same.find] at there,
      fun other _ => same.find other, fresh⟩
  · refine ⟨after, some sub, ran, counted, ?_, ?_, fresh⟩
    · intro other sub there
      rw [finds] at there
      split at there
      · cases there
      · exact there
    · intro other elsewhere
      rw [finds, if_neg elsewhere]

/-- An item drops its reference. -/
theorem SubsSound.drop (id : SubId) (users' : List SubId) (less : users.Perm (id :: users')) :
    ∃ after object, subs.drop id = some (after, object) ∧ SubsSound after events topics users' ∧
      Dropped subs after id := by
  obtain ⟨after, object, ran, counted, dropped⟩ := sound.drop_ok id
    (fun other => (held events topics).count other + users'.count other) (by
      intro other
      rw [less.count_eq, List.count_cons]
      simp only [beq_iff_eq, eq_comm (a := id)]
      omega)
  refine ⟨after, object, ran, ⟨counted, sound.once, sound.ordered, ?_, ?_, ?_⟩, dropped⟩
  · intro ttopic inside other on
    obtain ⟨sub, there, placed⟩ := sound.placed ttopic inside other on
    refine ⟨sub, ?_, placed⟩
    -- Who is on a node is still held, so it did not go.
    have inside : other ∈ held events topics :=
      List.mem_append_right _ (Topics.mem_attached.mpr ⟨ttopic, inside, on⟩)
    have positive := List.count_pos_iff.mpr inside
    obtain ⟨sub', there'⟩ := Option.isSome_iff_exists.mp
      ((counted.find_isSome other).mpr (by omega))
    have same := (dropped.found other sub' there').symm.trans there
    rw [there', Option.some.inj same]
  · exact fun other sub there => sound.waiting other sub (dropped.found other sub there)
  · exact fun other sub there => sound.released other sub (dropped.found other sub there)

/-- `sbfSub_destroy`, the first time: the remove event is queued. -/
theorem SubsSound.destroy {id : SubId} {sub : ReceivingSub} (found : subs.find id = some sub)
    (used : sub.mDestroyed = false) (f : ReceivingSub → ReceivingSub)
    (node : (f sub).mTportTopic = sub.mTportTopic) (destroyed : (f sub).mDestroyed = true)
    (removed : (f sub).mRemoved = sub.mRemoved) :
    ∃ after, subs.modify f id = some after ∧
      SubsSound after (events ++ [.remove id]) topics users ∧ after.fresh = subs.fresh ∧
      ∀ other, after.find other = if other = id then some (f sub) else subs.find other := by
  obtain ⟨after, ran, counted, fresh, finds⟩ := sound.written found f
  have owed : id ∈ held events topics := by
    by_contra free
    rw [sound.released id sub found free] at used
    cases used
  have here := sound.waiting id sub found owed
  rw [used, Bool.toNat_false] at here
  have same : held (events ++ [.remove id]) topics = held events topics := by
    simp only [held, List.filterMap_append]
    simp only [List.filterMap_cons, joining, List.filterMap_nil, List.append_nil]
  have counts : ∀ other, (events ++ [SubEvent.remove id]).count (.remove other) =
      events.count (.remove other) + if other = id then 1 else 0 := by
    intro other
    rw [List.count_append, List.count_singleton]
    simp only [beq_iff_eq, SubEvent.remove.injEq, eq_comm (a := id)]
  refine ⟨after, ran, ⟨?_, ?_, ?_, ?_, ?_, ?_⟩, fresh, finds⟩
  · rw [same]
    exact counted
  · rw [same]
    exact sound.once
  · exact sound.ordered.remove id (List.mem_append.mp owed)
  · exact sound.stays found node finds
  · intro other changed there inside
    rw [same] at inside
    rw [counts]
    rw [finds] at there
    split at there
    · rename_i itself
      subst itself
      rw [← Option.some.inj there, destroyed, removed, if_pos rfl, Bool.toNat_true]
      omega
    · rename_i elsewhere
      rw [if_neg elsewhere]
      exact sound.waiting other changed there inside
  · intro other changed there free
    rw [same] at free
    rw [finds] at there
    split at there
    · rw [← Option.some.inj there, destroyed]
    · exact sound.released other changed there free

end Subs

section Events

variable {subs : RefMemory ReceivingSub} {events : List SubEvent} {topics topics' : List TportTopic}
  {users : List SubId} {id : SubId}

/-- An add event puts its subscription on a node. -/
theorem SubsSound.attach (address : Nat)
    (sound : SubsSound subs (.add id :: events) topics users) {sub : ReceivingSub}
    (found : subs.find id = some sub) (f : ReceivingSub → ReceivingSub)
    (node : (f sub).mTportTopic = some address) (destroyed : (f sub).mDestroyed = sub.mDestroyed)
    (removed : (f sub).mRemoved = sub.mRemoved)
    (joined : (Topics.attached topics').Perm (id :: Topics.attached topics))
    (nodes : ∀ ttopic ∈ topics', ∀ other ∈ ttopic.mSubs, (other = id ∧ ttopic.address = address) ∨
      ∃ before ∈ topics, other ∈ before.mSubs ∧ before.address = ttopic.address) :
    ∃ after, subs.modify f id = some after ∧ SubsSound after events topics' users ∧
      after.fresh = subs.fresh ∧
      ∀ other, after.find other = if other = id then some (f sub) else subs.find other := by
  obtain ⟨after, ran, counted, fresh, finds⟩ := sound.written found f
  have same : (held events topics').Perm (held (.add id :: events) topics) := by
    simp only [held, List.filterMap_cons, joining]
    exact (joined.append_left _).trans List.perm_middle
  have apart : id ∉ Topics.attached topics := by
    have once := sound.once
    simp only [held, List.filterMap_cons, joining, List.cons_append, List.nodup_cons] at once
    exact fun inside => once.1 (List.mem_append_right _ inside)
  have silent : ∀ other, (SubEvent.add id :: events).count (.remove other) =
      events.count (.remove other) := fun other => List.count_cons_of_ne (by simp)
  have back : ∀ other changed, after.find other = some changed → ∃ before,
      subs.find other = some before ∧ changed.mDestroyed = before.mDestroyed ∧
      changed.mRemoved = before.mRemoved := by
    intro other changed there
    rw [finds] at there
    split at there
    · rename_i here
      rw [← Option.some.inj there, here]
      exact ⟨sub, found, destroyed, removed⟩
    · exact ⟨changed, there, rfl, rfl⟩
  refine ⟨after, ran, ⟨counted.congr ?_, ?_, ?_, ?_, ?_, ?_⟩, fresh, finds⟩
  · intro other
    rw [same.count_eq]
  · exact same.nodup_iff.mpr sound.once
  · exact Ordered.mono (fun other _ inside => joined.mem_iff.mpr inside) sound.ordered
  · intro ttopic inside other on
    rcases nodes ttopic inside other on with ⟨rfl, here⟩ | ⟨before, member, on, here⟩
    · exact ⟨f sub, by rw [finds, if_pos rfl], by rw [node, here]⟩
    · obtain ⟨kept, there, placed⟩ := sound.placed before member other on
      refine ⟨kept, ?_, by rw [placed, here]⟩
      rw [finds, if_neg, there]
      rintro rfl
      exact apart (Topics.mem_attached.mpr ⟨before, member, on⟩)
  · intro other changed there inside
    obtain ⟨before, there, was, was'⟩ := back other changed there
    rw [was, was', ← silent]
    exact sound.waiting other before there (same.mem_iff.mp inside)
  · intro other changed there free
    obtain ⟨before, there, was, _⟩ := back other changed there
    rw [was]
    exact sound.released other before there (mt same.mem_iff.mpr free)

/-- A remove event that comes before its subscription is ready leaves a mark. -/
theorem SubsSound.mark (sound : SubsSound subs (.remove id :: events) topics users)
    {sub : ReceivingSub} (found : subs.find id = some sub) (f : ReceivingSub → ReceivingSub)
    (node : (f sub).mTportTopic = sub.mTportTopic) (destroyed : (f sub).mDestroyed = sub.mDestroyed)
    (removed : (f sub).mRemoved = true) :
    ∃ after, subs.modify f id = some after ∧ SubsSound after events topics users ∧
      after.fresh = subs.fresh ∧
      ∀ other, after.find other = if other = id then some (f sub) else subs.find other := by
  obtain ⟨after, ran, counted, fresh, finds⟩ := sound.written found f
  have owed : id ∈ held (.remove id :: events) topics :=
    List.mem_append_right _ sound.ordered.1
  have here := sound.waiting id sub found owed
  rw [List.count_cons_self] at here
  have few : sub.mDestroyed.toNat ≤ 1 := Bool.toNat_le _
  refine ⟨after, ran, ⟨counted, sound.once, sound.ordered.2, ?_, ?_, ?_⟩, fresh, finds⟩
  · exact sound.stays found node finds
  · intro other changed there inside
    rw [finds] at there
    split at there
    · rename_i itself
      subst itself
      rw [← Option.some.inj there, destroyed, removed, Bool.toNat_true]
      omega
    · rename_i elsewhere
      have was := sound.waiting other changed there inside
      rwa [List.count_cons_of_ne (by simpa using Ne.symm elsewhere)] at was
  · intro other changed there free
    rw [finds] at there
    split at there
    · rename_i itself
      exact absurd (itself ▸ owed) free
    · exact sound.released other changed there free

/-- A removal that is carried out, by its event or after a mark, drops the
subscription's own reference. -/
theorem SubsSound.detach {before : List SubEvent} (sound : SubsSound subs before topics users)
    (event : before = .remove id :: events ∨ before = events) (quiet : .remove id ∉ events)
    {sub : ReceivingSub} (found : subs.find id = some sub) (destroyed : sub.mDestroyed = true)
    (left : (Topics.attached topics).Perm (id :: Topics.attached topics'))
    (nodes : ∀ ttopic ∈ topics', ∀ other ∈ ttopic.mSubs,
      ∃ old ∈ topics, other ∈ old.mSubs ∧ old.address = ttopic.address) :
    ∃ after object, subs.drop id = some (after, object) ∧ SubsSound after events topics' users ∧
      Dropped subs after id := by
  have same : before.filterMap joining = events.filterMap joining := by
    rcases event with rfl | rfl <;> rfl
  have fewer : (held before topics).Perm (id :: held events topics') := by
    rw [held, held, same]
    exact (left.append_left _).trans List.perm_middle
  have distinct := fewer.nodup_iff.mp sound.once
  rw [List.nodup_cons] at distinct
  have counts : ∀ other, other ≠ id → before.count (.remove other) = events.count (.remove other) := by
    intro other elsewhere
    rcases event with rfl | rfl
    · exact List.count_cons_of_ne (by simpa using Ne.symm elsewhere)
    · rfl
  have inherit : ∀ other, other ∈ held events topics' → other ≠ id ∧ other ∈ held before topics := by
    intro other inside
    exact ⟨fun same => distinct.1 (same ▸ inside),
      fewer.mem_iff.mpr (List.mem_cons_of_mem _ inside)⟩
  obtain ⟨after, object, ran, counted, dropped⟩ := sound.drop_ok id
    (fun other => (held events topics').count other + users.count other) (by
      intro other
      rw [fewer.count_eq, List.count_cons]
      simp only [beq_iff_eq, eq_comm (a := id)]
      omega)
  refine ⟨after, object, ran, ⟨counted, distinct.2, ?_, ?_, ?_, ?_⟩, dropped⟩
  · have ordered : Ordered events (Topics.attached topics) := by
      rcases event with rfl | rfl
      · exact sound.ordered.2
      · exact sound.ordered
    refine Ordered.mono ?_ ordered
    intro other removes inside
    rcases List.mem_cons.mp (left.mem_iff.mp inside) with rfl | inside
    · exact absurd removes quiet
    · exact inside
  · intro ttopic inside other on
    obtain ⟨old, member, on', here⟩ := nodes ttopic inside other on
    obtain ⟨kept, there, placed⟩ := sound.placed old member other on'
    have still : other ∈ held events topics' :=
      List.mem_append_right _ (Topics.mem_attached.mpr ⟨ttopic, inside, on⟩)
    exact ⟨kept, by rw [dropped.others other (inherit other still).1, there], by rw [placed, here]⟩
  · intro other kept there inside
    obtain ⟨elsewhere, owed⟩ := inherit other inside
    rw [← counts other elsewhere]
    exact sound.waiting other kept (dropped.found other kept there) owed
  · intro other kept there free
    by_cases itself : other = id
    · subst itself
      rw [Option.some.inj ((dropped.found other kept there).symm.trans found), destroyed]
    · refine sound.released other kept (dropped.found other kept there) ?_
      rw [fewer.mem_iff, List.mem_cons, not_or]
      exact ⟨itself, free⟩

end Events

end Receiving

end Sbf
