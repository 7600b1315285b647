import Sbf.ReceiveRuns

set_option autoImplicit false

/-! What the callbacks of a subscription get, and in which order, over any order of the steps of the
receive path. -/

namespace RefMemory

variable {α : Type} {memory after : RefMemory α} {id : Nat}

theorem find_modify {f : α → α} (ran : memory.modify f id = some after) (other : Nat) :
    after.find other = if other = id then (memory.find id).map f else memory.find other := by
  obtain ⟨⟨count, object⟩, found, rfl⟩ := Option.map_eq_some_iff.mp ran
  rw [find_entry found]
  simp only [find, RbTree.find_set]
  split <;> rfl

theorem find_addRef (ran : memory.addRef id = some after) (other : Nat) :
    after.find other = memory.find other := by
  obtain ⟨⟨count, object⟩, found, rfl⟩ := Option.map_eq_some_iff.mp ran
  simp only [find, RbTree.find_set]
  split
  · rename_i here
    rw [here, found]
    rfl
  · rfl

/-- What is there after a reference is dropped was there before. -/
theorem find_drop {last : Option α} (ran : memory.drop id = some (after, last)) {other : Nat}
    {object : α} (found : after.find other = some object) : memory.find other = some object := by
  obtain ⟨⟨count, here⟩, there, result⟩ := Option.map_eq_some_iff.mp ran
  split at result
  · cases result
    simp only [find, RbTree.find_erase] at found ⊢
    split at found
    · cases found
    · exact found
  · cases result
    simp only [find, RbTree.find_set] at found ⊢
    split at found
    · rename_i same
      rw [same, there]
      exact found
    · exact found

theorem fresh_modify {f : α → α} (ran : memory.modify f id = some after) :
    after.fresh = memory.fresh := by
  obtain ⟨_, -, rfl⟩ := Option.map_eq_some_iff.mp ran
  rfl

theorem fresh_addRef (ran : memory.addRef id = some after) : after.fresh = memory.fresh := by
  obtain ⟨_, -, rfl⟩ := Option.map_eq_some_iff.mp ran
  rfl

theorem fresh_drop {last : Option α} (ran : memory.drop id = some (after, last)) :
    after.fresh = memory.fresh := by
  obtain ⟨_, -, result⟩ := Option.map_eq_some_iff.mp ran
  split at result <;> (cases result; rfl)

end RefMemory

namespace Sbf.Receiving

open Octets

/-- The bytes that a buffer has. -/
def content (state : Receiving) (buffer : Nat) : Bytes :=
  ((state.buffers.find buffer).map (·.mData)).getD []

/-- The message that an item holds for a subscription. -/
def kept (state : Receiving) (id : SubId) (item : SubItem) : Option Bytes :=
  if item.closure = id then item.mData.map state.content else none

/-- The messages that wait for a subscription. -/
def waiting (state : Receiving) (id : SubId) : List Bytes := state.items.filterMap (state.kept id)

/-- The calls of `sbfSub_message` that `sbfHandler_packet` still has to make. -/
def toCome (state : Receiving) : List (SubId × Bytes) :=
  state.dispatching.toList.flatMap (fun serving =>
    serving.left.map (·, state.content serving.buffer)) ++
    state.handed.flatMap (fun one => one.sent.served.map (·, one.sent.payload))

/-- The messages of a packet that is received. -/
def dispatched (state : Receiving) : Action → List Dispatch
  | .receive bytes =>
      if state.Idle ∧ state.gone = false then
        (Handler.packet bytes state.mTopics).toOption.elim [] (·.2)
      else []
  | _ => []

/-- The next call of `sbfSub_message`. -/
def told (state : Receiving) : Action → List (SubId × Bytes)
  | .advance =>
      state.dispatching.toList.flatMap fun serving =>
        serving.left.head?.toList.map (·, state.content serving.buffer)
  | _ => []

/-- A call of the user's message callback: from `sbfSub_message` itself, or for the first item of
a queue unless its subscription is destroyed. -/
def called (state : Receiving) : Action → List (SubId × Bytes)
  | .advance => (state.told .advance).filter fun call =>
      (state.subs.find call.1).any fun sub => sub.toSub.message call.2 = some (.called call.2)
  | .dispatch mQueue =>
      (state.items.find? (·.mQueue = mQueue)).toList.flatMap fun item =>
        if (state.subs.find item.closure).any (!·.mDestroyed) then
          item.mData.toList.map fun buffer => (item.closure, state.content buffer)
        else []
  | _ => []

/-- What is seen of each step of a run. -/
def along {β : Type} (seen : Receiving → Action → List β) : List Action → Receiving → List β
  | [], _ => []
  | action :: rest, state =>
      seen state action ++ (step action state).toOption.elim [] (along seen rest)

/-- The messages of a subscription. -/
def messages (id : SubId) (calls : List (SubId × Bytes)) : List Bytes :=
  calls.filterMap fun call => if call.1 = id then some call.2 else none

/-- What is there was there, with what decides on its messages, and stays destroyed if it was, or is
new; the subscription of interest has no bypass unless it had one. -/
def Later (id : SubId) (before after : RefMemory ReceivingSub) : Prop :=
  before.fresh ≤ after.fresh ∧ ∀ other sub, after.find other = some sub →
    (∃ old, before.find other = some old ∧ sub.mMessageCb = old.mMessageCb ∧
      sub.mQueue = old.mQueue ∧ (sub.mDestroyed = false → old.mDestroyed = false) ∧
      (other = id → old.mQueueBypass = false → sub.mQueueBypass = false)) ∨
    (before.fresh ≤ other ∧ (other = id → sub.mQueueBypass = false))

theorem Later.refl (id : SubId) (subs : RefMemory ReceivingSub) : Later id subs subs :=
  ⟨Nat.le_refl _, fun _ sub found =>
    .inl ⟨sub, found, rfl, rfl, fun same => same, fun _ same => same⟩⟩

theorem Later.trans {id : SubId} {before middle after : RefMemory ReceivingSub}
    (front : Later id before middle) (back : Later id middle after) : Later id before after := by
  refine ⟨front.1.trans back.1, fun other sub found => ?_⟩
  obtain ⟨old, there, calls, queue, destroyed, bypass⟩ | ⟨new, free⟩ := back.2 other sub found
  · obtain ⟨first, start, calls', queue', destroyed', bypass'⟩ | ⟨new, free⟩ :=
      front.2 other old there
    · exact .inl ⟨first, start, calls.trans calls', queue.trans queue',
        fun same => destroyed' (destroyed same), fun here same => bypass here (bypass' here same)⟩
    · exact .inr ⟨new, fun here => bypass here (free here)⟩
  · exact .inr ⟨front.1.trans new, free⟩

theorem Later.obtain (id : SubId) {subs : RefMemory ReceivingSub} {sub : ReceivingSub}
    (free : sub.mQueueBypass = false) : Later id subs (subs.obtain sub) := by
  refine ⟨Nat.le_succ _, fun other found there => ?_⟩
  rw [RefMemory.find_obtain] at there
  split at there
  · rename_i here
    cases there
    exact .inr ⟨here.ge, fun _ => free⟩
  · exact (Later.refl id subs).2 other found there

theorem Later.modify {id other : SubId} {before after : RefMemory ReceivingSub}
    {f : ReceivingSub → ReceivingSub} (ran : before.modify f other = some after)
    (calls : ∀ sub, (f sub).mMessageCb = sub.mMessageCb ∧ (f sub).mQueue = sub.mQueue ∧
      ((f sub).mDestroyed = false → sub.mDestroyed = false) ∧
      (other = id → sub.mQueueBypass = false → (f sub).mQueueBypass = false)) :
    Later id before after := by
  refine ⟨(RefMemory.fresh_modify ran).ge, fun one sub found => ?_⟩
  rw [RefMemory.find_modify ran] at found
  split at found
  · rename_i here
    obtain ⟨old, there, rfl⟩ := Option.map_eq_some_iff.mp found
    obtain ⟨same, queue, destroyed, bypass⟩ := calls old
    exact .inl ⟨old, here ▸ there, same, queue, destroyed, fun itself => bypass (here ▸ itself)⟩
  · exact (Later.refl id before).2 one sub found

theorem Later.addRef (id : SubId) {other : SubId} {before after : RefMemory ReceivingSub}
    (ran : before.addRef other = some after) : Later id before after := by
  refine ⟨(RefMemory.fresh_addRef ran).ge, fun one sub found => ?_⟩
  rw [RefMemory.find_addRef ran] at found
  exact (Later.refl id before).2 one sub found

theorem Later.drop (id : SubId) {other : SubId} {before after : RefMemory ReceivingSub}
    {last : Option ReceivingSub} (ran : before.drop other = some (after, last)) :
    Later id before after :=
  ⟨(RefMemory.fresh_drop ran).ge, fun one sub found =>
    (Later.refl id before).2 one sub (RefMemory.find_drop ran found)⟩

/-- Locked buffers stay as they are while they are there. -/
def Steady (before after : RefMemory ReceivedBuffer) : Prop :=
  ∀ id old new, before.find id = some old → old.mLocked = true → after.find id = some new → new = old

theorem Steady.refl (memory : RefMemory ReceivedBuffer) : Steady memory memory := by
  intro id old new found _ found'
  exact Option.some.inj (found'.symm.trans found)

theorem Steady.of_found {before after : RefMemory ReceivedBuffer}
    (fewer : ∀ id buffer, after.find id = some buffer → before.find id = some buffer) :
    Steady before after := by
  intro id old new found _ found'
  exact Option.some.inj ((fewer id new found').symm.trans found)

theorem alive_ok {α : Type} {found : Option α} {result : α} (ran : alive found = .ok result) :
    found = some result := by
  cases found with
  | none => cases ran
  | some value =>
      cases ran
      rfl

theorem find_destroyBuffer {pool : Bool} {fuel id : Nat} {before after : RefMemory ReceivedBuffer}
    (ran : destroyBuffer pool fuel id before = .ok after) {other : Nat} {buffer : ReceivedBuffer}
    (found : after.find other = some buffer) : before.find other = some buffer := by
  induction fuel generalizing id before with
  | zero => cases ran
  | succ fuel ih =>
      obtain ⟨⟨middle, last⟩, dropped, ran⟩ := bind_ok ran
      have dropped := alive_ok dropped
      dsimp only at ran
      split at ran
      · exact RefMemory.find_drop dropped (ih ran)
      · split at ran
        · cases ran
          exact RefMemory.find_drop dropped found
        · cases ran
      · cases ran
        exact RefMemory.find_drop dropped found

theorem destroy_spec {state after : Receiving} {id : Nat} (ran : state.destroy id = .ok after) :
    ∃ buffers, after = { state with buffers := buffers } ∧
      ∀ other buffer, buffers.find other = some buffer → state.buffers.find other = some buffer := by
  obtain ⟨buffers, destroyed, result⟩ := bind_ok ran
  cases result
  exact ⟨buffers, rfl, fun _ _ => find_destroyBuffer destroyed⟩

/-- No message has come or gone. -/
structure Beside (id : SubId) (before after : Receiving) : Prop where
  buffers : after.buffers = before.buffers
  dispatching : after.dispatching = before.dispatching
  handed : after.handed = before.handed
  callers : after.callers = before.callers
  items : ∃ more, after.items = before.items ++ more ∧ ∀ item ∈ more, item.mData = none ∧
    item.closure < after.subs.fresh ∧
      ∀ sub, after.subs.find item.closure = some sub → item.mQueue = sub.mQueue
  subs : Later id before.subs after.subs

theorem Beside.of_subs {id : SubId} {before after : Receiving}
    (buffers : after.buffers = before.buffers) (dispatching : after.dispatching = before.dispatching)
    (handed : after.handed = before.handed) (callers : after.callers = before.callers)
    (items : after.items = before.items) (subs : Later id before.subs after.subs) :
    Beside id before after :=
  ⟨buffers, dispatching, handed, callers, ⟨[], by rw [items, List.append_nil], List.forall_mem_nil _⟩, subs⟩

theorem Beside.refl (id : SubId) (state : Receiving) : Beside id state state :=
  .of_subs rfl rfl rfl rfl rfl (.refl id _)

section Beside

variable {id other : SubId} {state after : Receiving}

theorem setSub_spec {f : ReceivingSub → ReceivingSub} (ran : state.setSub f other = .ok after) :
    ∃ subs, state.subs.modify f other = some subs ∧ after = { state with subs := subs } := by
  obtain ⟨subs, modified, result⟩ := bind_ok ran
  cases result
  exact ⟨subs, alive_ok modified, rfl⟩

theorem setSub_beside {f : ReceivingSub → ReceivingSub} (ran : state.setSub f other = .ok after)
    (calls : ∀ sub, (f sub).mMessageCb = sub.mMessageCb ∧ (f sub).mQueue = sub.mQueue ∧
      ((f sub).mDestroyed = false → sub.mDestroyed = false) ∧
      (other = id → sub.mQueueBypass = false → (f sub).mQueueBypass = false)) :
    Beside id state after := by
  obtain ⟨subs, modified, rfl⟩ := setSub_spec ran
  exact .of_subs rfl rfl rfl rfl rfl (.modify modified calls)

theorem release_beside (ran : state.release other = .ok after) : Beside id state after := by
  obtain ⟨⟨subs, last⟩, dropped, result⟩ := bind_ok ran
  cases result
  exact .of_subs rfl rfl rfl rfl rfl (.drop id (alive_ok dropped))

theorem Beside.trans {middle last : Receiving} (front : Beside id state middle)
    (back : Beside id middle last) : Beside id state last := by
  obtain ⟨early, items, idle⟩ := front.items
  obtain ⟨late, items', idle'⟩ := back.items
  refine ⟨back.buffers.trans front.buffers, back.dispatching.trans front.dispatching,
    back.handed.trans front.handed, back.callers.trans front.callers, ⟨early ++ late, by rw [items', items, List.append_assoc],
      List.forall_mem_append.mpr ⟨fun item inside => ?_, idle'⟩⟩, front.subs.trans back.subs⟩
  obtain ⟨empty, below, queue⟩ := idle item inside
  refine ⟨empty, Nat.lt_of_lt_of_le below back.subs.1, fun sub found => ?_⟩
  obtain ⟨old, there, -, same, -⟩ | ⟨new, -⟩ := back.subs.2 item.closure sub found
  · rw [queue old there, same]
  · exact absurd below (Nat.not_lt.mpr new)

theorem readySub_beside (ran : state.readySub other = .ok after)
    (below : other < state.subs.fresh) : Beside id state after := by
  obtain ⟨sub, found, ran⟩ := bind_ok ran
  obtain ⟨middle, set, ran⟩ := bind_ok ran
  have first : Beside id state middle := setSub_beside set fun _ => ⟨rfl, rfl, fun same => same,
    fun _ same => same⟩
  split at ran
  · obtain ⟨subs, shared, result⟩ := bind_ok ran
    cases result
    obtain ⟨middleSubs, modified, rfl⟩ := setSub_spec set
    refine first.trans ⟨rfl, rfl, rfl, rfl, ⟨_, rfl, ?_⟩, .addRef id (alive_ok shared)⟩
    intro item inside
    rw [List.mem_singleton.mp inside]
    refine ⟨rfl, ?_, fun now there => ?_⟩
    · rw [RefMemory.fresh_addRef (alive_ok shared), RefMemory.fresh_modify modified]
      exact below
    · rw [RefMemory.find_addRef (alive_ok shared), RefMemory.find_modify modified, if_pos rfl,
        alive_ok found] at there
      cases there
      rfl
  · cases ran
    exact first

/-- Changes of the stream, its nodes and its events alone. -/
theorem Beside.apart (id : SubId) (mRefCount : Nat) (gone : Bool) (mTopics : List TportTopic)
    (fresh : Nat) (events : List SubEvent) : Beside id state { state with
      mRefCount := mRefCount, gone := gone, mTopics := mTopics, fresh := fresh, events := events } :=
  .of_subs rfl rfl rfl rfl rfl (.refl id _)

theorem detach_spec {ttopic : TportTopic} (ran : state.detach other ttopic = .ok after) :
    ∃ mRefCount gone mTopics, after = { state with
      mRefCount := mRefCount, gone := gone, mTopics := mTopics } := by
  unfold detach at ran
  dsimp only at ran
  split at ran
  · obtain ⟨⟨empty, middle⟩, removed, ran⟩ := bind_ok ran
    unfold removeTopic at removed
    dsimp only at removed
    split at removed
    · cases removed
    · cases removed
      split at ran <;> (cases ran; exact ⟨_, _, _, rfl⟩)
  · cases ran
    exact ⟨_, _, _, rfl⟩

theorem addEventCb_beside (ran : state.addEventCb other = .ok after)
    (below : other < state.subs.fresh) : Beside id state after := by
  obtain ⟨sub, -, ran⟩ := bind_ok ran
  split at ran
  · cases ran
  obtain ⟨middle, set, ran⟩ := bind_ok ran
  have first : Beside id state middle := (Beside.apart id _ state.gone _ _ state.events).trans
    (setSub_beside set fun _ => ⟨rfl, rfl, fun same => same, fun _ same => same⟩)
  split at ran
  · exact first.trans (readySub_beside ran (Nat.lt_of_lt_of_le below first.subs.1))
  · cases ran
    exact first

theorem removeEventCb_beside (ran : state.removeEventCb other = .ok after) :
    Beside id state after := by
  obtain ⟨sub, -, ran⟩ := bind_ok ran
  split at ran
  · exact setSub_beside ran fun _ => ⟨rfl, rfl, fun same => same, fun _ same => same⟩
  split at ran
  · cases ran
  · obtain ⟨address, -, ran⟩ := bind_ok ran
    obtain ⟨ttopic, -, ran⟩ := bind_ok ran
    split at ran
    · cases ran
    · obtain ⟨middle, detached, ran⟩ := bind_ok ran
      obtain ⟨mRefCount, gone, mTopics, rfl⟩ := detach_spec detached
      exact (Beside.apart id mRefCount gone mTopics state.fresh state.events).trans
        (release_beside ran)

/-- What is found has been made. -/
theorem Sound.below (sound : state.Sound) {sub : ReceivingSub}
    (found : state.subs.find other = some sub) : other < state.subs.fresh :=
  sound.subs.counted.lt_fresh ((sound.subs.counted.find_isSome other).mp (by rw [found]; rfl))

theorem event_beside (sound : state.Sound) (ran : state.event = .ok after) :
    Beside id state after := by
  unfold event at ran
  split at ran
  · split at ran
    · cases ran
      exact .refl id _
    · obtain ⟨sub, found, -⟩ := bind_ok ran
      exact (Beside.apart id state.mRefCount state.gone state.mTopics state.fresh _).trans
        (addEventCb_beside ran (sound.below (alive_ok found)))
    · exact (Beside.apart id state.mRefCount state.gone state.mTopics state.fresh _).trans
        (removeEventCb_beside ran)
  · cases ran
    exact .refl id _

theorem completeSub_beside (sound : state.Sound) (ran : state.completeSub other = .ok after) :
    Beside id state after := by
  unfold completeSub at ran
  split at ran
  · obtain ⟨middle, ready, ran⟩ := bind_ok ran
    obtain ⟨sub, -, ran⟩ := bind_ok ran
    have first : Beside id state middle := by
      obtain ⟨sub, found, -⟩ := bind_ok ready
      exact readySub_beside ready (sound.below (alive_ok found))
    split at ran
    · exact first.trans (removeEventCb_beside ran)
    · cases ran
      exact first
  · cases ran
    exact .refl id _

theorem late_beside (ran : state.late = .ok after) : Beside id state after := by
  unfold late at ran
  split at ran
  · cases ran
  · cases ran
    exact .refl id _

theorem create_beside {topic : CString} {mQueue : Nat} {mReadyCb mMessageCb : Bool}
    (ran : state.create topic mQueue mReadyCb mMessageCb = .ok after) : Beside id state after := by
  unfold create at ran
  split at ran
  · exact late_beside ran
  · cases ran
    exact .of_subs rfl rfl rfl rfl rfl (.obtain id rfl)

theorem addPub_beside (ran : state.addPub = .ok after) : Beside id state after := by
  unfold addPub at ran
  split at ran
  · split at ran
    · exact late_beside ran
    · cases ran
      exact .of_subs rfl rfl rfl rfl rfl (.refl id _)
  · cases ran
    exact .refl id _

theorem removePub_beside (ran : state.removePub = .ok after) : Beside id state after := by
  unfold removePub at ran
  split at ran
  · dsimp only at ran
    split at ran
    · split at ran
      · cases ran
      · cases ran
        exact .of_subs rfl rfl rfl rfl rfl (.refl id _)
    · cases ran
      exact .of_subs rfl rfl rfl rfl rfl (.refl id _)
  · cases ran
    exact .refl id _

theorem destroySub_beside (ran : state.destroySub other = .ok after) : Beside id state after := by
  unfold destroySub at ran
  split at ran
  · cases ran
    exact .refl id _
  · split at ran
    · cases ran
      exact .refl id _
    · obtain ⟨middle, set, result⟩ := bind_ok ran
      cases result
      have first : Beside id state middle := setSub_beside set fun _ =>
        ⟨rfl, rfl, fun same => Bool.noConfusion same, fun _ same => same⟩
      exact first.trans (.of_subs rfl rfl rfl rfl rfl (.refl id _))

theorem setQueueBypass_beside {set : Bool} (apart : other = id → set = false)
    (ran : state.setQueueBypass other set = .ok after) : Beside id state after := by
  unfold setQueueBypass at ran
  split at ran
  · cases ran
    exact .refl id _
  · exact setSub_beside ran fun _ => ⟨rfl, rfl, fun same => same, fun here _ => apart here⟩

end Beside

/-- What holds after these calls, messages and packets: what has been called back is the front of
what `sbfSub_message` was called with, and the rest of it waits, unless the subscription is destroyed
or has no callback. What waits is locked, and on the queue of its subscription. -/
structure Orderly (id : SubId) (state : Receiving) (tolds calls : List (SubId × Bytes))
    (sent : List Dispatch) : Prop where
  locked : ∀ item ∈ state.items, ∀ buffer, item.mData = some buffer →
    ∃ data, state.buffers.find buffer = some data ∧ data.mLocked = true
  serving : ∀ serving, state.dispatching = some serving →
    ∃ data, state.buffers.find serving.buffer = some data ∧ data.mLocked = true
  queues : ∀ item ∈ state.items, ∀ sub, state.subs.find item.closure = some sub →
    item.mQueue = sub.mQueue ∧ (item.mData.isSome → sub.mMessageCb = true)
  all : tolds ++ state.toCome = sent.flatMap fun sent => sent.served.map (·, sent.payload)
  front : messages id calls <+: messages id tolds
  rest : ∀ sub, state.subs.find id = some sub → sub.mDestroyed = false → sub.mMessageCb = true →
    messages id calls ++ state.waiting id = messages id tolds
  free : ∀ sub, state.subs.find id = some sub → sub.mQueueBypass = false
  unborn : state.subs.fresh ≤ id → messages id tolds = []

section Orderly

variable {id : SubId} {state after : Receiving} {tolds calls : List (SubId × Bytes)}
  {sent : List Dispatch}

theorem Sound.item_alive (sound : state.Sound) {item : SubItem} (inside : item ∈ state.items) :
    (∃ sub, state.subs.find item.closure = some sub) ∧
      ∀ buffer, item.mData = some buffer → ∃ data, state.buffers.find buffer = some data := by
  obtain ⟨there, holds⟩ := sound.items_alive item (List.mem_append_left _ inside)
  exact ⟨Option.isSome_iff_exists.mp there,
    fun buffer data => Option.isSome_iff_exists.mp (holds buffer data)⟩

theorem Sound.items_below (sound : state.Sound) : ∀ item ∈ state.items,
    item.closure < state.subs.fresh := by
  intro item inside
  obtain ⟨sub, found⟩ := (sound.item_alive inside).1
  exact sound.below found

theorem Sound.serving_alive (sound : state.Sound) {serving : ServingSubs}
    (dispatches : state.dispatching = some serving) :
    ∃ data, state.buffers.find serving.buffer = some data := by
  refine sound.buffers.held _ (List.count_pos_iff.mpr ?_)
  obtain ⟨-, whose⟩ := sound.serving serving dispatches
  have called : state.packet ∈ state.callers := by
    refine sound.caller ?_
    rintro ⟨nothing, -⟩
    rw [nothing] at dispatches
    cases dispatches
  obtain ⟨buffer, mine, left⟩ := serving
  cases mine with
  | true =>
      refine List.mem_append_left _ (List.mem_append_right _ ?_)
      simp only [Receiving.mine, dispatches]
      exact List.mem_singleton_self _
  | false =>
      rw [whose rfl]
      exact List.mem_append_left _ (List.mem_append_left _ called)

theorem content_eq {buffer : Nat} {data : ReceivedBuffer}
    (found : state.buffers.find buffer = some data) : state.content buffer = data.mData := by
  rw [content, found]
  rfl

/-- What is locked and stays has the bytes it had. -/
theorem content_steady {before : Receiving} (steady : Steady before.buffers after.buffers)
    {buffer : Nat}
    (locked : ∃ data, before.buffers.find buffer = some data ∧ data.mLocked = true)
    (there : ∃ data, after.buffers.find buffer = some data) :
    after.content buffer = before.content buffer ∧
      ∃ data, after.buffers.find buffer = some data ∧ data.mLocked = true := by
  obtain ⟨data, found, lock⟩ := locked
  obtain ⟨new, found'⟩ := there
  obtain rfl := steady buffer data new found lock found'
  exact ⟨by rw [content_eq found, content_eq found'], new, found', lock⟩

/-- Steps that no message comes or goes in. -/
theorem Orderly.beside (orderly : Orderly id state tolds calls sent)
    {buffers : RefMemory ReceivedBuffer} (steady : Steady state.buffers buffers)
    (beside : Beside id { state with buffers := buffers } after)
    (below : ∀ item ∈ state.items, item.closure < state.subs.fresh)
    (holds : ∀ item ∈ state.items, ∀ buffer, item.mData = some buffer →
      ∃ data, after.buffers.find buffer = some data)
    (serves : ∀ serving, after.dispatching = some serving →
      ∃ data, after.buffers.find serving.buffer = some data) :
    Orderly id after tolds calls sent := by
  obtain ⟨more, items, idle⟩ := beside.items
  have steady' : Steady state.buffers after.buffers := by
    rw [beside.buffers]
    exact steady
  have alive : ∀ item ∈ state.items, ∀ buffer, item.mData = some buffer →
      after.content buffer = state.content buffer ∧
        ∃ data, after.buffers.find buffer = some data ∧ data.mLocked = true := by
    intro item inside buffer data
    exact content_steady steady' (orderly.locked item inside buffer data)
      (holds item inside buffer data)
  have waits : after.waiting id = state.waiting id := by
    have others : more.filterMap (after.kept id) = [] := by
      refine List.filterMap_eq_nil_iff.mpr fun item inside => ?_
      simp [kept, (idle item inside).1]
    rw [waiting, waiting, items, List.filterMap_append, others, List.append_nil]
    refine List.filterMap_congr fun item inside => ?_
    cases data : item.mData with
    | none => simp only [kept, data, Option.map_none]
    | some buffer => simp only [kept, data, Option.map_some, (alive item inside buffer data).1]
  refine ⟨?_, ?_, ?_, ?_, orderly.front, ?_, ?_, ?_⟩
  · rw [items]
    refine List.forall_mem_append.mpr ⟨fun item inside buffer data =>
      (alive item inside buffer data).2, fun item inside buffer data => ?_⟩
    rw [(idle item inside).1] at data
    cases data
  · intro serving dispatches
    have before := beside.dispatching.symm.trans dispatches
    exact (content_steady steady' (orderly.serving serving before) (serves serving dispatches)).2
  · rw [items]
    refine List.forall_mem_append.mpr ⟨fun item inside sub found => ?_, fun item inside sub found =>
      ⟨(idle item inside).2.2 sub found, fun some_ => ?_⟩⟩
    · obtain ⟨old, found', same, queue, -⟩ | ⟨new, -⟩ := beside.subs.2 item.closure sub found
      · obtain ⟨onQueue, hasCb⟩ := orderly.queues item inside old found'
        exact ⟨onQueue.trans queue.symm, fun some_ => same.trans (hasCb some_)⟩
      · exact absurd (below item inside) (Nat.not_lt.mpr new)
    · rw [(idle item inside).1] at some_
      cases some_
  · have comes : after.toCome = state.toCome := by
      rw [toCome, toCome, beside.dispatching, beside.handed]
      cases dispatches : state.dispatching with
      | none => rfl
      | some serving =>
          have same := (content_steady steady' (orderly.serving serving dispatches)
            (serves serving (beside.dispatching.trans dispatches))).1
          simp only [Option.toList_some, List.flatMap_singleton, same]
    rw [comes]
    exact orderly.all
  · intro sub found used hasCb
    rw [waits]
    obtain ⟨old, there, same, -, destroyed, -⟩ | ⟨new, -⟩ := beside.subs.2 id sub found
    · exact orderly.rest old there (destroyed used) (same.symm.trans hasCb)
    · have nothing := orderly.unborn new
      have before : state.waiting id = [] := by
        refine List.filterMap_eq_nil_iff.mpr fun item inside => ?_
        rw [kept, if_neg]
        rintro rfl
        exact absurd (below item inside) (Nat.not_lt.mpr new)
      have front := orderly.front
      rw [nothing] at front ⊢
      rw [List.prefix_nil.mp front, before]
      rfl
  · intro sub found
    obtain ⟨old, there, -, -, -, bypass⟩ | ⟨-, free⟩ := beside.subs.2 id sub found
    · exact bypass rfl (orderly.free old there)
    · exact free rfl
  · exact fun new => orderly.unborn (beside.subs.1.trans new)

/-- Steps that leave the items, or add ready ones, and let buffers go. -/
theorem Orderly.beside_sound (orderly : Orderly id state tolds calls sent)
    {buffers : RefMemory ReceivedBuffer} (steady : Steady state.buffers buffers)
    (beside : Beside id { state with buffers := buffers } after) (sound : state.Sound)
    (sound' : after.Sound) : Orderly id after tolds calls sent := by
  obtain ⟨more, items, -⟩ := beside.items
  refine orderly.beside steady beside sound.items_below (fun item inside buffer data => ?_)
    (fun serving => sound'.serving_alive)
  exact (sound'.item_alive (by rw [items]; exact List.mem_append_left _ inside)).2 buffer data

theorem finish_beside (id : SubId) {item : SubItem} (ran : state.finish item = .ok after) :
    ∃ buffers, Beside id { state with buffers := buffers } after ∧
      ∀ other buffer, buffers.find other = some buffer → state.buffers.find other = some buffer := by
  unfold Receiving.finish at ran
  split at ran
  · obtain ⟨middle, let_go, released⟩ := bind_ok ran
    obtain ⟨buffers, shape, fewer⟩ : ∃ buffers,
        middle = { state with running := state.running.erase item, buffers := buffers } ∧
          ∀ other buffer, buffers.find other = some buffer →
            state.buffers.find other = some buffer := by
      cases data : item.mData with
      | none =>
          rw [data] at let_go
          cases let_go
          exact ⟨state.buffers, rfl, fun _ _ found => found⟩
      | some buffer =>
          rw [data] at let_go
          exact destroy_spec let_go
    have aside : Beside id { state with buffers := buffers } middle := by
      rw [shape]
      exact .of_subs rfl rfl rfl rfl rfl (.refl id _)
    exact ⟨buffers, aside.trans (release_beside released), fewer⟩
  · cases ran
    exact ⟨state.buffers, .refl id _, fun _ _ found => found⟩

theorem drop_spec {buffer : Nat} (ran : state.drop buffer = .ok after) : ∃ callers buffers,
    after = { state with callers := callers, buffers := buffers } ∧
      (∀ other data, buffers.find other = some data → state.buffers.find other = some data) ∧
      (state.Idle → callers = state.callers.erase buffer) := by
  unfold Receiving.drop at ran
  split at ran
  · obtain ⟨buffers, rfl, fewer⟩ := destroy_spec ran
    exact ⟨_, buffers, rfl, fewer, fun _ => rfl⟩
  · rename_i kept
    cases ran
    exact ⟨_, _, rfl, fun _ _ found => found, fun idle =>
      (List.erase_of_not_mem fun inside => kept ⟨idle, inside⟩).symm⟩

theorem Orderly.finish (orderly : Orderly id state tolds calls sent) {item : SubItem}
    (ran : state.finish item = .ok after) (sound : state.Sound) (sound' : after.Sound) :
    Orderly id after tolds calls sent := by
  obtain ⟨buffers, beside, fewer⟩ := finish_beside id ran
  exact orderly.beside_sound (.of_found fewer) beside sound sound'

theorem Orderly.drop (orderly : Orderly id state tolds calls sent) {buffer : Nat}
    (ran : state.drop buffer = .ok after) (sound : state.Sound) (sound' : after.Sound) :
    Orderly id after tolds calls sent := by
  obtain ⟨callers, buffers, rfl, fewer, -⟩ := drop_spec ran
  have same : Orderly id { state with callers := callers } tolds calls sent := { orderly with }
  exact same.beside (.of_found fewer) (.refl id _) sound.items_below
    (fun item inside => (sound'.item_alive inside).2) (fun serving => sound'.serving_alive)

/-- A new buffer is none of those that are there. -/
theorem Sound.steady_obtain (sound : state.Sound) (buffer : ReceivedBuffer) :
    Steady state.buffers (state.buffers.obtain buffer) := by
  intro other old new found _ found'
  have below := sound.buffers.counted.lt_fresh
    ((sound.buffers.counted.find_isSome other).mp (by rw [found]; rfl))
  rw [RefMemory.find_obtain, if_neg (Nat.ne_of_lt below), found] at found'
  exact (Option.some.inj found').symm

theorem toCome_idle (idle : state.Idle) : state.toCome = [] := by
  rw [toCome, idle.1, idle.2]
  rfl

theorem Orderly.receive (orderly : Orderly id state tolds calls sent) {bytes : Bytes}
    (ran : state.receive bytes = .ok after) (sound : state.Sound) (sound' : after.Sound) :
    Orderly id after tolds calls (sent ++ state.dispatched (.receive bytes)) := by
  unfold Receiving.receive at ran
  split at ran
  case isFalse busy =>
    cases ran
    rwa [dispatched, if_neg fun comes => busy comes.1, List.append_nil]
  case isTrue idle =>
    split at ran
    case isTrue gone =>
      rw [dispatched, if_neg (by simp [gone]), List.append_nil]
      exact orderly.beside_sound (.refl _) (late_beside ran) sound sound'
    rename_i kept
    obtain ⟨⟨mTopics, handed⟩, hands, result⟩ := bind_ok ran
    cases result
    have packet : (Handler.packet bytes state.mTopics) = .ok (mTopics, handed.map (·.sent)) := by
      rw [← Handler.sends_packet]
      simp only [Handler.sends, hands, bind, Except.bind, pure, Except.pure]
    have read : Orderly id { state with
        mTopics := mTopics
        callers := state.callers ++ [state.buffers.fresh]
        packet := state.buffers.fresh } tolds calls sent := { orderly with }
    have same : Orderly id { state with
        mTopics := mTopics
        buffers := state.buffers.obtain ⟨bytes, .null, false⟩
        callers := state.callers ++ [state.buffers.fresh]
        packet := state.buffers.fresh } tolds calls sent :=
      read.beside (sound.steady_obtain _) (.refl id _) sound.items_below
        (fun item inside => (sound'.item_alive inside).2) (fun serving => sound'.serving_alive)
    refine { same with all := ?_ }
    rw [dispatched, if_pos ⟨idle, by simpa using kept⟩, packet]
    have before := orderly.all
    rw [toCome_idle idle, List.append_nil] at before
    rw [List.flatMap_append, before]
    congr 1
    rw [toCome, idle.1]
    change [] ++ handed.flatMap _ = (handed.map (·.sent)).flatMap _
    rw [List.nil_append, List.flatMap_map]

/-- The dispatch of a message starts on a buffer that has it. -/
theorem startDispatch_spec {buffer : Nat} {mine : Bool} {dispatch : Dispatch}
    (ran : state.startDispatch buffer mine dispatch = .ok after) : ∃ buffers,
    after = { state with
      buffers := buffers, dispatching := some ⟨buffer, mine, dispatch.served⟩ } ∧
    ∀ other, buffers.find other = if other = buffer then
      (state.buffers.find buffer).map (fun data => { data with mLocked := true })
      else state.buffers.find other := by
  obtain ⟨middle, set, result⟩ := bind_ok ran
  cases result
  obtain ⟨buffers, modified, result⟩ := bind_ok set
  cases result
  exact ⟨buffers, rfl, RefMemory.find_modify (alive_ok modified)⟩

theorem steady_lock {before middle after : RefMemory ReceivedBuffer} {buffer : Nat}
    (finds : ∀ other, after.find other = if other = buffer then
      (middle.find buffer).map (fun data => { data with mLocked := true }) else middle.find other)
    (same : ∀ other, other ≠ buffer → middle.find other = before.find other)
    (open_ : ∀ data, before.find buffer = some data → data.mLocked = false) :
    Steady before after := by
  intro other old new found lock found'
  by_cases here : other = buffer
  · rw [here] at found
    rw [open_ old found] at lock
    cases lock
  · rw [finds, if_neg here, same other here, found] at found'
    exact (Option.some.inj found').symm

theorem handOn_spec (sound : state.Sound) {first : Handler.Handed} {left : List Handler.Handed}
    (ran : { state with handed := left }.handOn first = .ok after) : ∃ buffers buffer mine data,
    after = { state with
      handed := left, buffers := buffers, dispatching := some ⟨buffer, mine, first.sent.served⟩ } ∧
    Steady state.buffers buffers ∧ buffers.find buffer = some data ∧ data.mLocked = true ∧
    data.mData = first.sent.payload := by
  have absent : state.buffers.find state.buffers.fresh = none := by
    rw [RefMemory.find, sound.buffers.counted.fresh _ (Nat.le_refl _)]
    rfl
  cases kind : first.source with
  | packet =>
      simp only [handOn, kind] at ran
      obtain ⟨middle, set, start⟩ := bind_ok ran
      obtain ⟨data, found, set⟩ := bind_ok set
      have found : state.buffers.find state.packet = some data := alive_ok found
      split at set
      · cases set
      · rename_i unlocked
        obtain ⟨buffers, modified, result⟩ := bind_ok set
        cases result
        have finds := RefMemory.find_modify (alive_ok modified)
        obtain ⟨locked, rfl, locks⟩ := startDispatch_spec start
        refine ⟨locked, _, _, _, rfl, steady_lock locks (fun other apart => ?_) (fun old there => ?_),
          by rw [locks, if_pos rfl, finds, if_pos rfl, found]; rfl, rfl, rfl⟩
        · rw [finds, if_neg apart]
        · rw [found] at there
          cases there
          simpa using unlocked
  | wrapped =>
      simp only [handOn, kind] at ran
      obtain ⟨shared, added, start⟩ := bind_ok ran
      have same := RefMemory.find_addRef (alive_ok added)
      have fresh := RefMemory.fresh_addRef (alive_ok added)
      obtain ⟨locked, rfl, locks⟩ := startDispatch_spec start
      refine ⟨locked, _, _, _, rfl, steady_lock locks (fun other apart => ?_) (fun old there => ?_),
        by rw [locks, if_pos rfl, RefMemory.find_obtain, if_pos rfl]; rfl, rfl, rfl⟩
      · rw [RefMemory.find_obtain, if_neg apart, same]
      · rw [fresh] at there
        rw [show state.buffers.find state.buffers.fresh = none from absent] at there
        cases there
  | assembled =>
      simp only [handOn, kind] at ran
      obtain ⟨locked, rfl, locks⟩ := startDispatch_spec ran
      refine ⟨locked, _, _, _, rfl, steady_lock locks (fun other apart => ?_) (fun old there => ?_),
        by rw [locks, if_pos rfl, RefMemory.find_obtain, if_pos rfl]; rfl, rfl, rfl⟩
      · rw [RefMemory.find_obtain, if_neg apart]
      · rw [show state.buffers.find state.buffers.fresh = none from absent] at there
        cases there

theorem Orderly.handOn (orderly : Orderly id state tolds calls sent) {first : Handler.Handed}
    {left : List Handler.Handed} (handed : state.handed = first :: left)
    (idle : state.dispatching = none)
    (ran : { state with handed := left }.handOn first = .ok after) (sound : state.Sound)
    (sound' : after.Sound) : Orderly id after tolds calls sent := by
  obtain ⟨buffers, buffer, mine, data, rfl, steady, found, lock, payload⟩ := handOn_spec sound ran
  have same : Orderly id { state with buffers := buffers } tolds calls sent :=
    orderly.beside steady (.refl id _) sound.items_below
      (fun item inside => (sound'.item_alive inside).2)
      (fun serving dispatches => by cases idle.symm.trans dispatches)
  refine { same with serving := ?_, all := ?_ }
  · rintro serving same
    cases same
    exact ⟨data, found, lock⟩
  · have before := orderly.all
    rw [toCome, idle, handed] at before
    rw [← before, toCome]
    have bytes : content { state with
        handed := left, buffers := buffers
        dispatching := some ⟨buffer, mine, first.sent.served⟩ } buffer = first.sent.payload := by
      rw [← payload]
      exact content_eq found
    simp only [Option.toList_some, Option.toList_none, List.flatMap_nil, List.nil_append,
      List.append_nil, List.flatMap_cons, bytes]

theorem messages_append (id : SubId) (front back : List (SubId × Bytes)) :
    messages id (front ++ back) = messages id front ++ messages id back :=
  List.filterMap_append

/-- The end of a message's dispatch. -/
theorem Orderly.served (orderly : Orderly id state tolds calls sent) {buffer : Nat} {mine : Bool}
    (dispatches : state.dispatching = some ⟨buffer, mine, []⟩)
    (ran : (if mine then { state with dispatching := none }.destroy buffer
      else .ok { state with dispatching := none }) = .ok after)
    (sound : state.Sound) (sound' : after.Sound) : Orderly id after tolds calls sent := by
  obtain ⟨buffers, shape, fewer⟩ : ∃ buffers,
      after = { state with dispatching := none, buffers := buffers } ∧
        ∀ other buffer, buffers.find other = some buffer →
          state.buffers.find other = some buffer := by
    cases mine with
    | true => exact destroy_spec ran
    | false =>
        cases ran
        exact ⟨state.buffers, rfl, fun _ _ found => found⟩
  subst shape
  have ended : Orderly id { state with dispatching := none } tolds calls sent := by
    refine { orderly with serving := fun serving same => (by cases same), all := ?_ }
    rw [← orderly.all, toCome, toCome, dispatches]
    rfl
  exact ended.beside (.of_found fewer) (.refl id _) sound.items_below
    (fun item inside => (sound'.item_alive inside).2) (fun serving same => (by cases same))

/-- `sbfSub_message` does nothing, or calls back at once, or queues an item. -/
theorem message_spec {other : SubId} {buffer : Nat} (ran : state.message other buffer = .ok after) :
    ∃ sub, state.subs.find other = some sub ∧
      ((sub.mDestroyed = true ∨ sub.mMessageCb = false) ∧ after = state ∨
        sub.mQueueBypass = true ∧
          after = { state with reports := state.reports ++ [.message other buffer] } ∨
        sub.mQueueBypass = false ∧ sub.mDestroyed = false ∧ sub.mMessageCb = true ∧
          ∃ buffers subs, state.buffers.addRef buffer = some buffers ∧
            state.subs.addRef other = some subs ∧ after = { state with
              buffers := buffers, subs := subs
              items := state.items ++ [⟨sub.mQueue, other, some buffer⟩] }) := by
  obtain ⟨sub, found, ran⟩ := bind_ok ran
  obtain ⟨data, there, ran⟩ := bind_ok ran
  refine ⟨sub, alive_ok found, ?_⟩
  by_cases listens : (!sub.mDestroyed && sub.mMessageCb) = true
  · rw [Sub.message, if_pos listens] at ran
    simp only [Bool.and_eq_true, Bool.not_eq_true'] at listens
    cases bypass : sub.mQueueBypass with
    | true =>
        rw [bypass] at ran
        cases ran
        exact .inr (.inl ⟨rfl, rfl⟩)
    | false =>
        rw [bypass] at ran
        obtain ⟨buffers, shared, ran⟩ := bind_ok ran
        obtain ⟨subs, added, result⟩ := bind_ok ran
        cases result
        exact .inr (.inr ⟨rfl, listens.1, listens.2, buffers, subs, alive_ok shared,
          alive_ok added, rfl⟩)
  · rw [Sub.message, if_neg listens] at ran
    cases ran
    refine .inl ⟨?_, rfl⟩
    cases destroyed : sub.mDestroyed with
    | true => exact .inl rfl
    | false => exact .inr (by simpa [destroyed] using listens)

theorem told_advance {buffer : Nat} {mine : Bool} {other : SubId} {left : List SubId}
    (dispatches : state.dispatching = some ⟨buffer, mine, other :: left⟩) :
    state.told .advance = [(other, state.content buffer)] := by
  rw [told, dispatches]
  rfl

/-- Without bypass nothing is called back at once. -/
theorem messages_called (free : ∀ sub, state.subs.find id = some sub → sub.mQueueBypass = false) :
    messages id (state.called .advance) = [] := by
  refine List.filterMap_eq_nil_iff.mpr fun call inside => ?_
  obtain ⟨-, calls⟩ := List.mem_filter.mp inside
  obtain ⟨sub, found, same⟩ := Option.any_eq_true _ _ |>.mp calls
  rw [if_neg]
  intro here
  rw [here] at found
  simp [Sub.message, free sub found] at same

theorem Orderly.message (orderly : Orderly id state tolds calls sent) {buffer : Nat} {mine : Bool}
    {other : SubId} {left : List SubId}
    (dispatches : state.dispatching = some ⟨buffer, mine, other :: left⟩)
    (ran : { state with dispatching := some ⟨buffer, mine, left⟩ }.message other buffer = .ok after)
    (sound : state.Sound) :
    Orderly id after (tolds ++ state.told .advance) (calls ++ state.called .advance) sent := by
  obtain ⟨data, found, lock⟩ := orderly.serving _ dispatches
  obtain ⟨sub, there, cases_⟩ := message_spec ran
  have there : state.subs.find other = some sub := there
  have telling : messages id (tolds ++ state.told .advance) =
      messages id tolds ++ if other = id then [state.content buffer] else [] := by
    rw [messages_append, told_advance dispatches]
    congr 1
    by_cases here : other = id <;> simp [messages, here]
  have calling : messages id (calls ++ state.called .advance) = messages id calls := by
    rw [messages_append, messages_called orderly.free, List.append_nil]
  have all : (tolds ++ state.told .advance) ++
      toCome { state with dispatching := some ⟨buffer, mine, left⟩ } =
        sent.flatMap fun sent => sent.served.map (·, sent.payload) := by
    rw [← orderly.all, told_advance dispatches, toCome, toCome, dispatches]
    simp only [Option.toList_some, List.flatMap_cons, List.flatMap_nil, List.append_nil,
      List.map_cons, List.append_assoc, List.cons_append, List.nil_append]
    rfl
  have front : messages id (calls ++ state.called .advance) <+:
      messages id (tolds ++ state.told .advance) := by
    rw [telling, calling]
    exact orderly.front.trans (List.prefix_append _ _)
  have unborn : state.subs.fresh ≤ id → messages id (tolds ++ state.told .advance) = [] := by
    intro new
    have apart : other ≠ id := by
      rintro rfl
      exact absurd (sound.below there) (Nat.not_lt.mpr new)
    rw [telling, if_neg apart, List.append_nil]
    exact orderly.unborn new
  have unchanged (same : other = id → ∀ sub, state.subs.find id = some sub →
      sub.mDestroyed = false → sub.mMessageCb = true → False) :
      Orderly id { state with dispatching := some ⟨buffer, mine, left⟩ }
        (tolds ++ state.told .advance) (calls ++ state.called .advance) sent := by
    refine ⟨orderly.locked, ?_, orderly.queues, all, front, ?_, orderly.free, unborn⟩
    · rintro serving same
      cases same
      exact ⟨data, found, lock⟩
    · intro sub found used hasCb
      rw [telling, calling, if_neg (fun here => same here sub found used hasCb), List.append_nil]
      exact orderly.rest sub found used hasCb
  obtain ⟨deaf, rfl⟩ | ⟨bypass, rfl⟩ |
    ⟨-, used, hasCb, buffers, subs, shared, added, rfl⟩ := cases_
  · refine unchanged fun here sub' found' used hasCb => ?_
    rw [← here, there] at found'
    cases found'
    rcases deaf with destroyed | none_
    · rw [used] at destroyed
      cases destroyed
    · rw [hasCb] at none_
      cases none_
  · refine { unchanged fun here sub' found' _ _ => ?_ with }
    have free := orderly.free sub' found'
    rw [← here, there] at found'
    cases found'
    rw [bypass] at free
    cases free
  · have same := RefMemory.find_addRef shared
    have same' := RefMemory.find_addRef added
    have bytes : content { state with
        dispatching := some ⟨buffer, mine, left⟩, buffers := buffers, subs := subs
        items := state.items ++ [⟨sub.mQueue, other, some buffer⟩] } = state.content := by
      funext one
      rw [content, content, same]
    have waits : waiting { state with
        dispatching := some ⟨buffer, mine, left⟩, buffers := buffers, subs := subs
        items := state.items ++ [⟨sub.mQueue, other, some buffer⟩] } id =
        state.waiting id ++ if other = id then [state.content buffer] else [] := by
      have keeps : kept { state with
          dispatching := some ⟨buffer, mine, left⟩, buffers := buffers, subs := subs
          items := state.items ++ [⟨sub.mQueue, other, some buffer⟩] } id = state.kept id := by
        funext item
        rw [kept, kept, bytes]
      rw [waiting, keeps, List.filterMap_append]
      by_cases here : other = id <;> simp [waiting, kept, here]
    refine ⟨?_, ?_, ?_, ?_, front, ?_, ?_, ?_⟩
    · refine List.forall_mem_append.mpr ⟨fun item inside one data => ?_,
        List.forall_mem_singleton.mpr fun one data => ?_⟩
      · obtain ⟨data', found', lock'⟩ := orderly.locked item inside one data
        exact ⟨data', (same one).trans found', lock'⟩
      · cases data
        exact ⟨_, (same buffer).trans found, lock⟩
    · rintro serving here
      cases here
      exact ⟨data, (same buffer).trans found, lock⟩
    · refine List.forall_mem_append.mpr ⟨fun item inside one found' => ?_,
        List.forall_mem_singleton.mpr fun one found' => ?_⟩
      · exact orderly.queues item inside one ((same' _).symm.trans found')
      · have here := (same' other).symm.trans found'
        rw [there] at here
        cases here
        exact ⟨rfl, fun _ => hasCb⟩
    · rw [← all]
      simp only [toCome, bytes]
      rfl
    · intro one found' used' hasCb'
      rw [telling, calling, waits, ← List.append_assoc,
        orderly.rest one ((same' id).symm.trans found') used' hasCb']
    · exact fun one found' => orderly.free one ((same' id).symm.trans found')
    · exact fun new => unborn (RefMemory.fresh_addRef added ▸ new)

theorem startItem_spec {item : SubItem} (ran : state.startItem item = .ok after) :
    (∃ sub, state.subs.find item.closure = some sub) ∧ ∃ reports, after = { state with
      items := state.items.erase item
      running := state.running ++ [item]
      reports := reports } := by
  obtain ⟨sub, found, ran⟩ := bind_ok ran
  refine ⟨⟨sub, alive_ok found⟩, ?_⟩
  cases data : item.mData with
  | none =>
      simp only [data] at ran
      cases ran
      exact ⟨_, rfl⟩
  | some buffer =>
      simp only [data] at ran
      obtain ⟨_, -, ran⟩ := bind_ok ran
      cases ran
      exact ⟨_, rfl⟩

/-- An item that was behind others of other queues is the first one of its subscription. -/
theorem Orderly.first (orderly : Orderly id state tolds calls sent) {front back : List SubItem}
    {item : SubItem} {sub : ReceivingSub} (items : state.items = front ++ item :: back)
    (others : ∀ other ∈ front, other.mQueue ≠ item.mQueue)
    (found : state.subs.find item.closure = some sub) (here : item.closure = id) :
    front.filterMap (state.kept id) = [] := by
  refine List.filterMap_eq_nil_iff.mpr fun other inside => ?_
  rw [kept, if_neg]
  intro same
  have within : ∀ one ∈ front ++ item :: back, one ∈ state.items := fun one there => items ▸ there
  rw [here] at found
  have own := (orderly.queues item (within _ (List.mem_append_right _ List.mem_cons_self)) sub
    (by rw [here, found])).1
  have others' := (orderly.queues other (within _ (List.mem_append_left _ inside)) sub
    (by rw [same, found])).1
  exact others other inside (others'.trans own.symm)

theorem Orderly.dispatch (orderly : Orderly id state tolds calls sent) {mQueue : Nat}
    (ran : state.dispatch mQueue = .ok after) :
    Orderly id after tolds (calls ++ state.called (.dispatch mQueue)) sent := by
  cases first : state.items.find? (·.mQueue = mQueue) with
  | none =>
      simp only [Receiving.dispatch, first] at ran
      cases ran
      simpa only [called, first, Option.toList_none, List.flatMap_nil, List.append_nil]
        using orderly
  | some item =>
      simp only [Receiving.dispatch, first] at ran
      obtain ⟨⟨sub, found⟩, reports, rfl⟩ := startItem_spec ran
      obtain ⟨queue, front, back, items, before⟩ := List.find?_eq_some_iff_append.mp first
      have queue : item.mQueue = mQueue := by simpa using queue
      have others : ∀ other ∈ front, other.mQueue ≠ item.mQueue := by
        intro other inside same
        have apart := before other inside
        simp [same, queue] at apart
      have absent : item ∉ front := fun inside => others item inside rfl
      have left : state.items.erase item = front ++ back := by
        rw [items, List.erase_append_right _ absent, List.erase_cons_head]
      have fewer : ∀ other ∈ state.items.erase item, other ∈ state.items := fun other =>
        List.mem_of_mem_erase
      have waits : state.waiting id = front.filterMap (state.kept id) ++
          ((state.kept id item).toList ++ back.filterMap (state.kept id)) := by
        rw [waiting, items, List.filterMap_append, List.filterMap_cons]
        cases state.kept id item <;> rfl
      have waits' : waiting { state with
          items := state.items.erase item, running := state.running ++ [item], reports := reports }
            id = front.filterMap (state.kept id) ++ back.filterMap (state.kept id) := by
        rw [← List.filterMap_append, ← left]
        rfl
      have calling : state.called (.dispatch mQueue) = if sub.mDestroyed = false then
          item.mData.toList.map fun buffer => (item.closure, state.content buffer) else [] := by
        simp only [called, first, Option.toList_some, List.flatMap_cons, List.flatMap_nil,
          List.append_nil, found, Option.any_some, Bool.not_eq_true']
      have unchanged (nothing : messages id (state.called (.dispatch mQueue)) = [])
          (rest : ∀ sub, state.subs.find id = some sub → sub.mDestroyed = false →
            (state.kept id item).toList = []) : Orderly id { state with
            items := state.items.erase item, running := state.running ++ [item]
            reports := reports } tolds (calls ++ state.called (.dispatch mQueue)) sent := by
        refine ⟨fun other inside => orderly.locked other (fewer other inside), orderly.serving,
          fun other inside => orderly.queues other (fewer other inside), orderly.all, ?_, ?_,
          orderly.free, orderly.unborn⟩
        · rw [messages_append, nothing, List.append_nil]
          exact orderly.front
        · intro sub found used hasCb
          have whole := orderly.rest sub found used hasCb
          rw [waits, rest sub found used, List.nil_append] at whole
          rw [messages_append, nothing, List.append_nil, waits', whole]
      have inside : item ∈ state.items := by
        rw [items]
        exact List.mem_append_right _ List.mem_cons_self
      by_cases here : item.closure = id
      · cases data : item.mData with
        | none =>
            refine unchanged ?_ fun _ _ _ => ?_
            · rw [calling, data]
              split <;> rfl
            · rw [kept, data]
              split <;> rfl
        | some buffer =>
            cases destroyed : sub.mDestroyed with
            | true =>
                refine unchanged ?_ fun sub' found' used => ?_
                · rw [calling, destroyed]
                  rfl
                · rw [← here, found] at found'
                  cases found'
                  rw [destroyed] at used
                  cases used
            | false =>
                have hasCb := (orderly.queues item inside sub found).2 (by rw [data]; rfl)
                have whole := orderly.rest sub (here ▸ found) destroyed hasCb
                rw [waits, orderly.first items others found here, List.nil_append, kept, if_pos here,
                  data] at whole
                have telling : messages id (calls ++ state.called (.dispatch mQueue)) =
                    messages id calls ++ [state.content buffer] := by
                  rw [messages_append, calling, if_pos destroyed, data]
                  simp [messages, here]
                refine ⟨fun other inside => orderly.locked other (fewer other inside),
                  orderly.serving, fun other inside => orderly.queues other (fewer other inside),
                  orderly.all, ?_, ?_, orderly.free, orderly.unborn⟩
                · rw [telling, ← whole]
                  exact ⟨back.filterMap (state.kept id), by simp⟩
                · intro _ _ _ _
                  rw [telling, waits', orderly.first items others found here, ← whole]
                  simp
      · refine unchanged ?_ fun _ _ _ => ?_
        · rw [calling]
          split
          · cases item.mData <;> simp [messages, here]
          · rfl
        · rw [kept, if_neg here]
          rfl

theorem Orderly.advance (orderly : Orderly id state tolds calls sent)
    (ran : state.advance = .ok after) (sound : state.Sound) (sound' : after.Sound) :
    Orderly id after (tolds ++ state.told .advance) (calls ++ state.called .advance) sent := by
  have quiet (nothing : state.told .advance = []) (same : Orderly id after tolds calls sent) :
      Orderly id after (tolds ++ state.told .advance) (calls ++ state.called .advance) sent := by
    rwa [called, nothing, List.filter_nil, List.append_nil, List.append_nil]
  cases dispatches : state.dispatching with
  | none =>
      have nothing : state.told .advance = [] := by
        rw [told, dispatches]
        rfl
      refine quiet nothing ?_
      cases handed : state.handed with
      | nil =>
          simp only [Receiving.advance, dispatches, handed] at ran
          cases ran
          exact orderly
      | cons first left =>
          refine orderly.handOn handed dispatches ?_ sound sound'
          rw [← ran]
          simp only [Receiving.advance, dispatches, handed]
  | some serving =>
      obtain ⟨buffer, mine, left⟩ := serving
      simp only [Receiving.advance, dispatches] at ran
      cases left with
      | cons other left => exact orderly.message dispatches ran sound
      | nil =>
          have nothing : state.told .advance = [] := by
            rw [told, dispatches]
            rfl
          exact quiet nothing (orderly.served dispatches ran sound sound')

theorem Orderly.step (orderly : Orderly id state tolds calls sent) {action : Action}
    (queued : action ≠ .setQueueBypass id true) (ran : Receiving.step action state = .ok after)
    (sound : state.Sound) : Orderly id after (tolds ++ state.told action)
      (calls ++ state.called action) (sent ++ state.dispatched action) := by
  have sound' := sound.next ran
  have aside (told_ : state.told action = []) (called_ : state.called action = [])
      (sent_ : state.dispatched action = []) (same : Orderly id after tolds calls sent) :
      Orderly id after (tolds ++ state.told action) (calls ++ state.called action)
        (sent ++ state.dispatched action) := by
    rwa [told_, called_, sent_, List.append_nil, List.append_nil, List.append_nil]
  have beside (same : Beside id state after) : Orderly id after tolds calls sent :=
    orderly.beside_sound (.refl _) same sound sound'
  cases action with
  | create topic mQueue mReadyCb mMessageCb => exact aside rfl rfl rfl (beside (create_beside ran))
  | addPub => exact aside rfl rfl rfl (beside (addPub_beside ran))
  | removePub => exact aside rfl rfl rfl (beside (removePub_beside ran))
  | destroySub sub => exact aside rfl rfl rfl (beside (destroySub_beside ran))
  | setQueueBypass sub set =>
      refine aside rfl rfl rfl (beside (setQueueBypass_beside (fun here => ?_) ran))
      cases set with
      | false => rfl
      | true => exact absurd (by rw [here]) queued
  | receive bytes =>
      have next := orderly.receive ran sound sound'
      have told_ : state.told (.receive bytes) = [] := rfl
      have called_ : state.called (.receive bytes) = [] := rfl
      rwa [told_, called_, List.append_nil, List.append_nil]
  | advance =>
      have next := orderly.advance ran sound sound'
      have sent_ : state.dispatched .advance = [] := rfl
      rwa [sent_, List.append_nil]
  | drop buffer => exact aside rfl rfl rfl (orderly.drop ran sound sound')
  | event => exact aside rfl rfl rfl (beside (event_beside sound ran))
  | complete =>
      cases ran
      refine aside rfl rfl rfl (beside ?_)
      unfold complete
      split
      · exact .of_subs rfl rfl rfl rfl rfl (.refl id _)
      · exact .refl id _
  | completeSub sub => exact aside rfl rfl rfl (beside (completeSub_beside sound ran))
  | dispatch mQueue =>
      have next := orderly.dispatch ran
      have told_ : state.told (.dispatch mQueue) = [] := rfl
      have sent_ : state.dispatched (.dispatch mQueue) = [] := rfl
      rwa [told_, sent_, List.append_nil, List.append_nil]
  | finish item => exact aside rfl rfl rfl (orderly.finish ran sound sound')

theorem Orderly.run (orderly : Orderly id state tolds calls sent) {actions : List Action}
    (queued : ∀ action ∈ actions, action ≠ .setQueueBypass id true)
    (ran : Receiving.run actions state = .ok after) (sound : state.Sound) :
    Orderly id after (tolds ++ along told actions state) (calls ++ along called actions state)
      (sent ++ along dispatched actions state) := by
  induction actions generalizing state tolds calls sent with
  | nil =>
      cases ran
      simpa only [along, List.append_nil] using orderly
  | cons action rest ih =>
      obtain ⟨here, later⟩ := List.forall_mem_cons.mp queued
      obtain ⟨next, first, onward⟩ := bind_ok ran
      have last := ih (orderly.step here first sound) later onward (sound.next first)
      simpa only [along, first, Except.toOption, Option.elim_some, List.append_assoc] using last

theorem new_orderly (id : SubId) (reader : PacketReader) : Orderly id (new reader) [] [] [] where
  locked item inside := by cases inside
  serving serving same := by cases same
  queues item inside := by cases inside
  all := rfl
  front := List.prefix_refl _
  rest sub found := by cases found
  free sub found := by cases found
  unborn _ := rfl

end Orderly

/-- Whatever else happens in between, `sbfSub_message` is called for the messages of the packets in
their order, once for each subscription that is served; and the callback of a subscription without
bypass gets the first of its messages, once each, in order and as they were sent. As long as it is
not destroyed the others wait for it. -/
theorem receive_run_order (id : SubId) (reader : PacketReader) (actions : List Action)
    (queued : ∀ action ∈ actions, action ≠ .setQueueBypass id true) {last : Receiving}
    (ran : run actions (new reader) = .ok last) :
    along told actions (new reader) ++ last.toCome =
        (along dispatched actions (new reader)).flatMap
          (fun sent => sent.served.map (·, sent.payload)) ∧
      messages id (along called actions (new reader)) <+:
        messages id (along told actions (new reader)) ∧
      ∀ sub, last.subs.find id = some sub → sub.mDestroyed = false → sub.mMessageCb = true →
        messages id (along called actions (new reader)) ++ last.waiting id =
          messages id (along told actions (new reader)) := by
  have orderly := (new_orderly id reader).run queued ran (new_sound reader)
  simp only [List.nil_append] at orderly
  exact ⟨orderly.all, orderly.front, orderly.rest⟩

/-- Two messages come in; the user's queue has dispatched the first one. -/
def firstOfTwo : List Action :=
  [.create Pub.tick.mTopic 0 false true, .event, .receive (tickMessage [1]), .advance, .advance,
    .advance, .drop 0, .receive (tickMessage [2]), .advance, .advance, .advance, .dispatch 0]

theorem receive_run_order_firstOfTwo : ∃ last, run firstOfTwo (new .tcpMesh) = .ok last ∧
    messages 0 (along called firstOfTwo (new .tcpMesh)) = [[1]] ∧ last.waiting 0 = [[2]] := by
  obtain ⟨last, sub, ran, found, used, listens⟩ : ∃ last sub,
      run firstOfTwo (new .tcpMesh) = .ok last ∧ last.subs.find 0 = some sub ∧
      sub.mDestroyed = false ∧ sub.mMessageCb = true :=
    ⟨_, _, rfl, rfl, rfl, rfl⟩
  have calls : messages 0 (along called firstOfTwo (new .tcpMesh)) = [[1]] := rfl
  have telling : messages 0 (along told firstOfTwo (new .tcpMesh)) = [[1], [2]] := rfl
  obtain ⟨-, -, rest⟩ := receive_run_order 0 .tcpMesh firstOfTwo (by simp [firstOfTwo]) ran
  have both := rest sub found used listens
  rw [calls, telling] at both
  exact ⟨last, ran, calls, (List.cons.inj both).2⟩

end Sbf.Receiving
