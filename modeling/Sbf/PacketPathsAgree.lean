import Sbf.PacketPaths

set_option autoImplicit false

namespace Sbf.PacketPaths

open Octets Handler Receiving

variable {W : Type} {app : Application W} {memory : Bytes} {packet : Nat}

/-- What a delivery is but for its buffer. -/
def Delivered.seen (one : Delivered) : SubId × Delivery := (one.sub, one.delivery)

def Delivered.isQueued (one : Delivered) : Bool :=
  match one.delivery with
  | .queued _ => true
  | .called _ => false

/-- The references that items hold. -/
def items (out : List Delivered) : Nat := out.countP Delivered.isQueued

/-- The deliveries of a payload to subscriptions, and what the application is then. -/
def serve (app : Application W) (payload : Bytes) : List SubId → W → W × List (SubId × Delivery)
  | [], world => (world, [])
  | sub :: rest, world =>
      match (app.subs world sub).message payload with
      | none => serve app payload rest world
      | some (.called payload') =>
          let more := serve app payload rest (app.mMessageCb world sub payload')
          (more.1, (sub, .called payload') :: more.2)
      | some (.queued payload') =>
          let more := serve app payload rest world
          (more.1, (sub, .queued payload') :: more.2)

section Contents

variable {buffers after : RefMemory PacketBuffer} {id : Nat} {buffer : PacketBuffer}

/-- Contents depend on what is there, not on counts or locks. -/
theorem content_congr
    (same : ∀ other, (after.find other).map (fun buffer => (buffer.mData, buffer.mSize)) =
      (buffers.find other).map (fun buffer => (buffer.mData, buffer.mSize))) (id : Nat) :
    content memory packet after id = content memory packet buffers id := by
  have here := same id
  have own := same packet
  unfold content
  cases found : buffers.find id with
  | none =>
      rw [found, Option.map_none, Option.map_eq_none_iff] at here
      rw [here]
      rfl
  | some buffer =>
      rw [found] at here
      obtain ⟨other, foundAfter, shape⟩ := Option.map_eq_some_iff.mp here
      obtain ⟨data, size⟩ := Prod.mk.inj shape
      rw [foundAfter]
      cases foundOwn : buffers.find packet with
      | none =>
          rw [foundOwn, Option.map_none, Option.map_eq_none_iff] at own
          simp only [alive, own, data, size, bind, Except.bind]
      | some ownBuffer =>
          rw [foundOwn] at own
          obtain ⟨otherOwn, foundOwnAfter, _⟩ := Option.map_eq_some_iff.mp own
          simp only [alive, foundOwnAfter, data, size, bind, Except.bind]

theorem content_same (same : buffers.Same after) (id : Nat) :
    content memory packet after id = content memory packet buffers id :=
  content_congr (fun other => by rw [same.find]) id

/-- A lock keeps nobody from reading. -/
theorem content_locked
    (locks : ∀ other, after.find other =
      if other = id then (buffers.find id).map ({ · with mLocked := true }) else buffers.find other)
    (other : Nat) :
    content memory packet after other = content memory packet buffers other := by
  apply content_congr
  intro one
  rw [locks]
  split
  case isTrue here =>
      rw [here, Option.map_map]
      rfl
  case isFalse => rfl

theorem content_packet (memory : Bytes) {packet : Nat} (there : (buffers.find packet).isSome) (found : buffers.find id = some buffer)
    {offset : Nat} (points : buffer.mData = .packet offset) :
    content memory packet buffers id = inside (slice memory offset buffer.mSize) := by
  obtain ⟨own, foundOwn⟩ := Option.isSome_iff_exists.mp there
  simp only [content, found, foundOwn, points, alive, bind, Except.bind]

theorem content_fragments (found : buffers.find id = some buffer) {data : Bytes}
    (points : buffer.mData = .fragments data) :
    content memory packet buffers id = inside (slice data 0 buffer.mSize) := by
  simp only [content, found, points, alive, bind, Except.bind]

end Contents

theorem queued_payload {sub : Sub} {payload queued : Bytes}
    (delivery : sub.message payload = some (.queued queued)) : queued = payload := by
  unfold Sub.message at delivery
  split at delivery
  case isTrue =>
      split at delivery
      case isTrue => cases delivery
      case isFalse =>
          cases delivery
          rfl
  case isFalse => cases delivery

theorem items_cons (one : Delivered) (out : List Delivered) :
    items (one :: out) = items out + if one.isQueued then 1 else 0 := List.countP_cons ..

/-- `sbfSub_message` for each subscription of a list. -/
theorem serve_all (app : Application W) {payload : Bytes} (id : Nat) (subs : List SubId) (state : PathState W)
    (refs : Nat → Nat) (sound : state.buffers.Sound refs) (held : 0 < refs id)
    (reads : content memory packet state.buffers id = .ok payload) :
    ∃ buffers out, Step.all (subs.map (message app memory packet id)) state =
        .ok (⟨state.mTopics, buffers, (serve app payload subs state.world).1⟩, out) ∧
      out.map Delivered.seen = (serve app payload subs state.world).2 ∧
      (∀ one ∈ out, one.buffer = id ∧ ∀ queued, one.delivery = .queued queued → queued = payload) ∧
      buffers.Sound (fun other => refs other + if other = id then items out else 0) ∧
      state.buffers.Same buffers := by
  induction subs generalizing state refs with
  | nil =>
      refine ⟨state.buffers, [], rfl, rfl, nofun, sound.congr ?_, ⟨fun _ => rfl, fun _ => rfl, rfl⟩⟩
      intro other
      simp [items]
  | cons sub rest ih =>
      cases delivery : (app.subs state.world sub).message payload with
      | none =>
          have one : message app memory packet id sub state = .ok (state, []) := by
            simp only [message, reads, delivery, bind, Except.bind]
            rfl
          obtain ⟨buffers, out, run, same⟩ := ih state refs sound held reads
          refine ⟨buffers, out, ?_, ?_⟩
          · rw [List.map_cons, Step.all_cons, Step.andThen_ok one, run, serve, delivery]
            rfl
          · rw [serve, delivery]
            exact same
      | some what =>
          cases what with
          | called called =>
              have one : message app memory packet id sub state =
                  .ok ({ state with world := app.mMessageCb state.world sub called },
                    [⟨sub, id, .called called⟩]) := by
                simp only [message, reads, delivery, bind, Except.bind]
                rfl
              obtain ⟨buffers, out, run, seen, each, after, same⟩ :=
                ih { state with world := app.mMessageCb state.world sub called } refs sound held reads
              refine ⟨buffers, ⟨sub, id, .called called⟩ :: out, ?_, ?_, ?_, after, same⟩
              · rw [List.map_cons, Step.all_cons, Step.andThen_ok one, run, serve, delivery]
                rfl
              · rw [serve, delivery, List.map_cons, seen]
                rfl
              · intro other member
                cases List.mem_cons.mp member with
                | inl here =>
                    rw [here]
                    exact ⟨rfl, nofun⟩
                | inr inside => exact each other inside
          | queued queued =>
              obtain rfl := queued_payload delivery
              obtain ⟨more, added, soundMore, sameMore⟩ := sound.addRef id
                (fun other => refs other + if other = id then 1 else 0) held (fun _ => rfl)
              have one : message app memory packet id sub state =
                  .ok ({ state with buffers := more }, [⟨sub, id, .queued queued⟩]) := by
                simp only [message, reads, delivery, added, alive, bind, Except.bind]
                rfl
              have still : content memory packet more id = .ok queued := by
                rw [content_same sameMore]
                exact reads
              obtain ⟨buffers, out, run, seen, each, after, same⟩ :=
                ih { state with buffers := more } _ soundMore (by simp) still
              refine ⟨buffers, ⟨sub, id, .queued queued⟩ :: out, ?_, ?_, ?_, after.congr ?_, ?_⟩
              · rw [List.map_cons, Step.all_cons, Step.andThen_ok one, run, serve, delivery]
                rfl
              · rw [serve, delivery, List.map_cons, seen]
                rfl
              · intro other member
                cases List.mem_cons.mp member with
                | inl here =>
                    rw [here]
                    refine ⟨rfl, ?_⟩
                    intro again same
                    cases same
                    rfl
                | inr inside => exact each other inside
              · intro other
                have one_ : (Delivered.mk sub id (.queued queued)).isQueued = true := rfl
                rw [items_cons, one_, if_pos rfl]
                split <;> omega
              · exact ⟨fun other => (same.find other).trans (sameMore.find other),
                  fun p => (same.tally p).trans (sameMore.tally p), same.fresh.trans sameMore.fresh⟩

/-- What a run of `sbfHandlerDispatchMessage` leaves behind. -/
structure Dispatched (app : Application W) (payload : Bytes) (id : Nat) (refs : Nat → Nat)
    (before : PathState W) (sent : Dispatch) (after : PathState W) (out : List Delivered) :
    Prop where
  world : after.world = (serve app payload sent.served before.world).1
  seen : out.map Delivered.seen = (serve app payload sent.served before.world).2
  each : ∀ one ∈ out, one.buffer = id ∧ ∀ queued, one.delivery = .queued queued → queued = payload
  sound : after.buffers.Sound (fun other => refs other + if other = id then items out else 0)
  find : ∀ other, after.buffers.find other =
    if other = id then (before.buffers.find id).map ({ · with mLocked := true })
    else before.buffers.find other

/-- Whatever the buffer, its content decides. -/
theorem dispatchMessage_spec (app : Application W) {payload : Bytes} (ttopic : TportTopic) (id : Nat)
    (state : PathState W) (refs : Nat → Nat) (sound : state.buffers.Sound refs)
    (held : 0 < refs id) (reads : content memory packet state.buffers id = .ok payload) :
    (∃ fault, ttopic.dispatchMessage payload = .error fault ∧
      dispatchMessage app memory packet ttopic id state = .error fault) ∨
    ∃ next sent after out, ttopic.dispatchMessage payload = .ok (next, sent) ∧
      dispatchMessage app memory packet ttopic id state = .ok (after, out) ∧
      after.mTopics = Topics.update state.mTopics next ∧
      Dispatched app payload id refs state sent after out := by
  obtain ⟨locked, buffer, found, lock, lockedSound, lockedFind, _, _⟩ :=
    sound.modify id held (fun buffer => { buffer with mLocked := true })
  have locks : ∀ other, locked.find other =
      if other = id then (state.buffers.find id).map ({ · with mLocked := true })
      else state.buffers.find other := by
    intro other
    rw [lockedFind, found]
    rfl
  have still : content memory packet locked id = .ok payload := by
    rw [content_locked locks]
    exact reads
  cases run : ttopic.dispatchMessage payload with
  | error fault =>
      refine Or.inl ⟨fault, rfl, ?_⟩
      simp only [dispatchMessage, lock, alive, still, run, bind, Except.bind]
  | ok result =>
      obtain ⟨next, sent⟩ := result
      obtain ⟨buffers, out, serves, seen, each, after, same⟩ := serve_all app id sent.served
        ⟨Topics.update state.mTopics next, locked, state.world⟩ refs lockedSound held still
      refine Or.inr ⟨next, sent,
        ⟨Topics.update state.mTopics next, buffers, (serve app payload sent.served state.world).1⟩,
        out, rfl, ?_, rfl, ⟨rfl, seen, each, after, ?_⟩⟩
      · simp only [dispatchMessage, lock, alive, still, run, bind, Except.bind]
        exact serves
      · intro other
        rw [same.find, lockedFind, found]
        rfl

theorem dispatchMessage_fails (app : Application W) (ttopic : TportTopic) (id : Nat) (state : PathState W)
    (refs : Nat → Nat) (sound : state.buffers.Sound refs) (held : 0 < refs id) {fault : Fault}
    (reads : content memory packet state.buffers id = .error fault) :
    dispatchMessage app memory packet ttopic id state = .error fault := by
  obtain ⟨locked, buffer, found, lock, _, lockedFind, _, _⟩ :=
    sound.modify id held (fun buffer => { buffer with mLocked := true })
  have locks : ∀ other, locked.find other =
      if other = id then (state.buffers.find id).map ({ · with mLocked := true })
      else state.buffers.find other := by
    intro other
    rw [lockedFind, found]
    rfl
  have still : content memory packet locked id = .error fault := by
    rw [content_locked locks]
    exact reads
  simp only [dispatchMessage, lock, alive, still, bind, Except.bind]

section Destroys

variable {buffers : RefMemory PacketBuffer} {refs : Nat → Nat} (sound : buffers.Sound refs)
include sound

/-- A reference less. -/
def dropped (refs : Nat → Nat) (id : Nat) : Nat → Nat := fun other =>
  refs other - if other = id then 1 else 0

omit sound in
theorem dropped_less {id : Nat} (held : 0 < refs id) (other : Nat) :
    refs other = dropped refs id other + if other = id then 1 else 0 := by
  unfold dropped
  split
  case isTrue here =>
      subst here
      omega
  case isFalse => rfl

/-- A buffer that somebody else refers to stays. -/
theorem destroyBuffer_kept (fuel id : Nat) (more : 1 < refs id) :
    ∃ after, destroyBuffer (fuel + 1) id buffers = .ok after ∧ after.Sound (dropped refs id) ∧
      buffers.Same after := by
  have held : 0 < refs id := Nat.lt_of_succ_lt more
  obtain ⟨after, object, _, afterSound, _, drops⟩ :=
    sound.drop id (dropped refs id) held (dropped_less held)
  cases drops with
  | inl stays =>
      refine ⟨after, ?_, afterSound, stays.2.2⟩
      simp only [destroyBuffer, stays.2.1, alive, bind, Except.bind]
      rfl
  | inr goes =>
      have none_ : dropped refs id id = refs id - 1 := by rw [dropped, if_pos rfl]
      omega

/-- The last reference takes the buffer with it, and the one that it was wrapped around loses
a reference. -/
theorem destroyBuffer_last (fuel id : Nat) (last : refs id = 1) {buffer : PacketBuffer}
    (found : buffers.find id = some buffer) :
    ∃ rest, rest.Sound (dropped refs id) ∧
      (∀ other, rest.find other = if other = id then none else buffers.find other) ∧
      destroyBuffer (fuel + 1) id buffers =
        match buffer.mDestroyCb with
        | .handlerBuffer closure => destroyBuffer fuel closure rest
        | _ => .ok rest := by
  have held : 0 < refs id := by omega
  obtain ⟨rest, object, same, restSound, _, drops⟩ :=
    sound.drop id (dropped refs id) held (dropped_less held)
  rw [found] at same
  cases same
  cases drops with
  | inl stays =>
      have none_ : dropped refs id id = refs id - 1 := by rw [dropped, if_pos rfl]
      omega
  | inr goes =>
      refine ⟨rest, restSound, goes.2.2.1, ?_⟩
      obtain ⟨data, size, cb, locked⟩ := buffer
      simp only [destroyBuffer, goes.2.1, alive, bind, Except.bind]
      cases cb <;> rfl

end Destroys

/-- What a run shows: the nodes, the application, and what was delivered. -/
def seen (result : Except Fault (PathState W × List Delivered)) :
    Except Fault (List TportTopic × W × List (SubId × Delivery)) :=
  result.map (fun done => (done.1.mTopics, done.1.world, done.2.map Delivered.seen))

/-- What is delivered with an item can still be read when the packet's reader has destroyed the
packet. -/
def Kept (memory : Bytes) (packet : Nat)
    (result : Except Fault (PathState W × List Delivered)) : Prop :=
  ∀ state out, result = .ok (state, out) →
    ∃ after, destroy packet state = .ok after ∧
      ∀ one ∈ out, ∀ payload, one.delivery = .queued payload →
        content memory packet after.buffers one.buffer = .ok payload

/-- The dispatch of a payload to the subscriptions of a node. -/
def dispatched (app : Application W) (ttopic : TportTopic) (topics : List TportTopic) (world : W)
    (payload : Except Fault Bytes) :
    Except Fault (List TportTopic × W × List (SubId × Delivery)) := do
  let payload ← payload
  let (next, sent) ← ttopic.dispatchMessage payload
  return (Topics.update topics next, serve app payload sent.served world)

theorem items_pos {one : Delivered} {out : List Delivered} (member : one ∈ out)
    {payload : Bytes} (queued : one.delivery = .queued payload) : 0 < items out := by
  apply List.countP_pos_iff.mpr
  exact ⟨one, member, by rw [Delivered.isQueued, queued]⟩

theorem kept_error (packet : Nat) (fault : Fault) :
    Kept memory packet (.error fault : Except Fault (PathState W × List Delivered)) := nofun

theorem kept_ok {packet : Nat} {state : PathState W} {out : List Delivered}
    {last : RefMemory PacketBuffer}
    (gone : destroyBuffer (packet + 1) packet state.buffers = .ok last)
    (readable : ∀ one ∈ out, ∀ payload, one.delivery = .queued payload →
      content memory packet last one.buffer = .ok payload) :
    Kept memory packet (.ok (state, out)) := by
  intro state' out' same
  cases same
  refine ⟨{ state with buffers := last }, ?_, readable⟩
  simp only [destroy, gone, bind, Except.bind]
  rfl

/-- Without items there is nothing to read. -/
theorem kept_noItems {packet : Nat} {state : PathState W} {out : List Delivered}
    {last : RefMemory PacketBuffer}
    (gone : destroyBuffer (packet + 1) packet state.buffers = .ok last) (noItems : items out = 0) :
    Kept memory packet (.ok (state, out)) := by
  apply kept_ok gone
  intro one member payload queued
  have positive := items_pos member queued
  omega

/-- A dispatch with a buffer that is destroyed behind it. -/
def dispatchNew (app : Application W) (memory : Bytes) (ttopic : TportTopic) (state : PathState W) :
    Except Fault (PathState W × List Delivered) := do
  let (state, out) ← dispatchMessage app memory 0 ttopic 1 state
  let state ← destroy 1 state
  return (state, out)

/-- The packet at 0 and a buffer that was made behind it: one from fragments, or one that is
wrapped around a part of the packet. -/
structure Made (state : PathState W) (refs : Nat → Nat) (buffer : PacketBuffer) : Prop where
  sound : state.buffers.Sound refs
  own : ∃ own, state.buffers.find 0 = some own ∧ own.mDestroyCb = .null
  found : state.buffers.find 1 = some buffer
  one : refs 1 = 1
  kind : (buffer.mDestroyCb = .fragmentBuffer ∧ (∃ data, buffer.mData = .fragments data) ∧
      refs 0 = 1) ∨
    (buffer.mDestroyCb = .handlerBuffer 0 ∧ refs 0 = 2)

/-- Behind the dispatch the new buffer stays for its items, and the packet with it. -/
theorem Made.after {before state : PathState W} {refs : Nat → Nat} {buffer : PacketBuffer}
    (made : Made before refs buffer) {payload : Bytes} {sent : Dispatch} {out : List Delivered}
    (reads : content memory 0 before.buffers 1 = .ok payload)
    (done : Dispatched app payload 1 refs before sent state out) :
    ∃ after, destroy 1 state = .ok after ∧ after.mTopics = state.mTopics ∧
      after.world = state.world ∧ Kept memory 0 (.ok (after, out)) := by
  obtain ⟨own, foundOwn, plain⟩ := made.own
  have sound := done.sound
  have find0 : state.buffers.find 0 = some own := by
    rw [done.find, if_neg (by decide)]
    exact foundOwn
  have find1 : state.buffers.find 1 = some { buffer with mLocked := true } := by
    rw [done.find, if_pos rfl, made.found]
    rfl
  have still : content memory 0 state.buffers 1 = .ok payload := by
    rw [content_locked done.find]
    exact reads
  by_cases none_ : items out = 0
  · obtain ⟨rest, restSound, restFind, run⟩ := destroyBuffer_last sound 1 1
      (by simp [made.one, none_]) find1
    have rest0 : rest.find 0 = some own := by
      rw [restFind, if_neg (by decide)]
      exact find0
    cases made.kind with
    | inl fragments =>
        obtain ⟨cb, _, single⟩ := fragments
        simp only [cb] at run
        refine ⟨{ state with buffers := rest }, ?_, rfl, rfl, ?_⟩
        · simp only [destroy, run, bind, Except.bind]
          rfl
        · obtain ⟨last, _, _, gone⟩ := destroyBuffer_last restSound 0 0
            (by simp [dropped, single]) rest0
          simp only [plain] at gone
          exact kept_noItems gone none_
    | inr wrapped =>
        obtain ⟨cb, both⟩ := wrapped
        simp only [cb] at run
        obtain ⟨left, gone, leftSound, same⟩ := destroyBuffer_kept restSound 0 0
          (by simp [dropped, both])
        refine ⟨{ state with buffers := left }, ?_, rfl, rfl, ?_⟩
        · simp only [destroy, run, gone, bind, Except.bind]
          rfl
        · have left0 : left.find 0 = some own := by
            rw [same.find]
            exact rest0
          obtain ⟨last, _, _, ends⟩ := destroyBuffer_last leftSound 0 0
            (by simp [dropped, both]) left0
          simp only [plain] at ends
          exact kept_noItems ends none_
  · obtain ⟨left, run, leftSound, same⟩ := destroyBuffer_kept sound 1 1
      (by simp [made.one]; omega)
    have left0 : left.find 0 = some own := by
      rw [same.find]
      exact find0
    have stillLeft : content memory 0 left 1 = .ok payload := by
      rw [content_same same]
      exact still
    refine ⟨{ state with buffers := left }, ?_, rfl, rfl, ?_⟩
    · simp only [destroy, run, bind, Except.bind]
      rfl
    · cases made.kind with
      | inl fragments =>
          obtain ⟨_, ⟨data, points⟩, single⟩ := fragments
          obtain ⟨last, _, lastFind, gone⟩ := destroyBuffer_last leftSound 0 0
            (by simp [dropped, single]) left0
          simp only [plain] at gone
          apply kept_ok gone
          intro one member payload' queued
          obtain ⟨id, rfl⟩ := (done.each one member).imp id (fun each => each payload' queued)
          have left1 : left.find 1 = some { buffer with mLocked := true } := by
            rw [same.find]
            exact find1
          have last1 : last.find 1 = some { buffer with mLocked := true } := by
            rw [lastFind, if_neg (by decide)]
            exact left1
          rw [id, content_fragments last1 points, ← content_fragments left1 points]
          exact stillLeft
      | inr wrapped =>
          obtain ⟨last, gone, _, lastSame⟩ := destroyBuffer_kept leftSound 0 0
            (by simp [dropped, wrapped.2])
          apply kept_ok gone
          intro one member payload' queued
          obtain ⟨id, rfl⟩ := (done.each one member).imp id (fun each => each payload' queued)
          rw [id, content_same lastSame]
          exact stillLeft

/-- The dispatch with a new buffer: its content decides what is seen. -/
theorem Made.dispatches {state : PathState W} {refs : Nat → Nat} {buffer : PacketBuffer}
    (made : Made state refs buffer) (app : Application W) (memory : Bytes) (ttopic : TportTopic) :
    seen (dispatchNew app memory ttopic state) =
        dispatched app ttopic state.mTopics state.world (content memory 0 state.buffers 1) ∧
      Kept memory 0 (dispatchNew app memory ttopic state) := by
  have held : 0 < refs 1 := by rw [made.one]; exact Nat.one_pos
  cases reads : content memory 0 state.buffers 1 with
  | error fault =>
      have run : dispatchNew app memory ttopic state = .error fault := by
        simp only [dispatchNew, bind, Except.bind,
          dispatchMessage_fails app ttopic 1 state refs made.sound held reads]
      rw [run]
      exact ⟨rfl, kept_error 0 fault⟩
  | ok payload =>
      cases dispatchMessage_spec app ttopic 1 state refs made.sound held reads with
      | inl failed =>
          obtain ⟨fault, sends, fails⟩ := failed
          have run : dispatchNew app memory ttopic state = .error fault := by
            simp only [dispatchNew, fails, bind, Except.bind]
          rw [run]
          refine ⟨?_, kept_error 0 fault⟩
          simp only [dispatched, sends, bind, Except.bind]
          rfl
      | inr went =>
          obtain ⟨next, sent, after, out, sends, run, topics, done⟩ := went
          obtain ⟨last, destroyed, lastTopics, lastWorld, kept⟩ := made.after reads done
          have whole : dispatchNew app memory ttopic state = .ok (last, out) := by
            simp only [dispatchNew, run, destroyed, bind, Except.bind]
            rfl
          rw [whole]
          refine ⟨?_, kept⟩
          simp only [dispatched, sends, bind, Except.bind]
          rw [seen]
          simp only [Except.map, lastTopics, lastWorld, topics, done.world, done.seen]
          rfl

/-- The packet alone, as it comes to `sbfHandler_packet`. -/
def start (memory : Bytes) (mTopics : List TportTopic) (world : W) : PathState W where
  mTopics := mTopics
  buffers := RefMemory.empty.obtain ⟨.packet 0, memory.length, .null, false⟩
  world := world

theorem start_sound (memory : Bytes) (mTopics : List TportTopic) (world : W) :
    (start memory mTopics world).buffers.Sound (fun id => if id = 0 then 1 else 0) := by
  apply RefMemory.empty_sound.obtain
  intro id
  rw [Nat.zero_add]
  rfl

theorem start_find (memory : Bytes) (mTopics : List TportTopic) (world : W) :
    (start memory mTopics world).buffers.find 0 =
      some ⟨.packet 0, memory.length, .null, false⟩ := RefMemory.find_obtain _ 0

/-- A buffer around a part of the packet. -/
theorem wrapped_made (memory : Bytes) (mTopics : List TportTopic) (world : W) (offset size : Nat) :
    ∃ buffers, (start memory mTopics world).buffers.addRef 0 = some buffers ∧ buffers.fresh = 1 ∧
      Made ⟨mTopics, buffers.obtain ⟨.packet offset, size, .handlerBuffer 0, false⟩, world⟩
        (fun id => if id = 0 then 2 else if id = 1 then 1 else 0)
        ⟨.packet offset, size, .handlerBuffer 0, false⟩ := by
  obtain ⟨buffers, added, sound, same⟩ := (start_sound memory mTopics world).addRef 0
    (fun id => if id = 0 then 2 else 0) (by decide) (by intro other; split <;> rfl)
  have fresh : buffers.fresh = 1 := same.fresh
  refine ⟨buffers, added, fresh, ?_, ?_, ?_, rfl, Or.inr ⟨rfl, rfl⟩⟩
  · apply sound.obtain
    intro id
    rw [fresh]
    by_cases zero : id = 0
    · simp [zero]
    · simp [zero]
  · refine ⟨⟨.packet 0, memory.length, .null, false⟩, ?_, rfl⟩
    rw [RefMemory.find_obtain, fresh, if_neg (by decide), same.find]
    exact start_find memory mTopics world
  · rw [RefMemory.find_obtain, fresh, if_pos rfl]

/-- A buffer from `sbfTport_assemble`. -/
theorem assembled_made (memory : Bytes) (mTopics : List TportTopic) (world : W) (data : Bytes) (size : Nat) :
    Made ⟨mTopics,
        (start memory mTopics world).buffers.obtain ⟨.fragments data, size, .fragmentBuffer, false⟩,
        world⟩
      (fun id => if id = 0 then 1 else if id = 1 then 1 else 0)
      ⟨.fragments data, size, .fragmentBuffer, false⟩ := by
  have sound := start_sound memory mTopics world
  have fresh : (start memory mTopics world).buffers.fresh = 1 := rfl
  refine ⟨?_, ?_, ?_, rfl, Or.inl ⟨rfl, ⟨data, rfl⟩, rfl⟩⟩
  · apply sound.obtain
    intro id
    rw [fresh]
    by_cases zero : id = 0
    · simp [zero]
    · simp [zero]
  · refine ⟨⟨.packet 0, memory.length, .null, false⟩, ?_, rfl⟩
    rw [RefMemory.find_obtain, fresh, if_neg (by decide)]
    exact start_find memory mTopics world
  · rw [RefMemory.find_obtain, fresh, if_pos rfl]

/-- Nothing was delivered. -/
theorem start_kept (memory : Bytes) (mTopics topics : List TportTopic) (world : W) :
    Kept memory 0 (.ok ({ start memory mTopics world with mTopics := topics }, [])) := by
  intro state out same
  cases same
  obtain ⟨last, _, _, run⟩ := destroyBuffer_last (start_sound memory mTopics world) 0 0
    rfl (start_find memory mTopics world)
  refine ⟨{ start memory mTopics world with mTopics := topics, buffers := last }, ?_, nofun⟩
  simp only [destroy, run, bind, Except.bind]
  rfl

/-- The packet's own buffer, set to a part of the packet. -/
theorem inPlace_dispatches (app : Application W) (memory : Bytes) (ttopic : TportTopic) (mTopics : List TportTopic) (world : W)
    (offset size : Nat) :
    ∃ state, setData 0 (.packet offset) size (start memory mTopics world) = .ok state ∧
      seen (dispatchMessage app memory 0 ttopic 0 state) =
        dispatched app ttopic mTopics world (inside (slice memory offset size)) ∧
      Kept memory 0 (dispatchMessage app memory 0 ttopic 0 state) := by
  obtain ⟨buffers, object, found, modified, sound, find, _, _⟩ :=
    (start_sound memory mTopics world).modify 0 Nat.one_pos
      (fun buffer => { buffer with mData := .packet offset, mSize := size })
  rw [start_find] at found
  cases found
  have own : buffers.find 0 = some ⟨.packet offset, size, .null, false⟩ := find 0
  have reads : content memory 0 buffers 0 = inside (slice memory offset size) :=
    content_packet memory (by rw [own]; rfl) own rfl
  refine ⟨⟨mTopics, buffers, world⟩, ?_, ?_⟩
  · simp only [setData, start_find, alive, modified, bind, Except.bind]
    rfl
  · cases payload_ : inside (slice memory offset size) with
    | error fault =>
        rw [payload_] at reads
        rw [dispatchMessage_fails app ttopic 0 ⟨mTopics, buffers, world⟩ _ sound Nat.one_pos reads]
        exact ⟨rfl, kept_error 0 fault⟩
    | ok payload =>
        rw [payload_] at reads
        cases dispatchMessage_spec app ttopic 0 ⟨mTopics, buffers, world⟩ _ sound
            Nat.one_pos reads with
        | inl failed =>
            obtain ⟨fault, sends, fails⟩ := failed
            rw [fails]
            refine ⟨?_, kept_error 0 fault⟩
            simp only [dispatched, sends, bind, Except.bind]
            rfl
        | inr went =>
            obtain ⟨next, sent, after, out, sends, run, topics, done⟩ := went
            rw [run]
            refine ⟨?_, ?_⟩
            · simp only [dispatched, sends, bind, Except.bind, seen, Except.map, topics, done.world,
                done.seen]
              rfl
            · have locked : after.buffers.find 0 = some ⟨.packet offset, size, .null, true⟩ := by
                rw [done.find, if_pos rfl]
                change (buffers.find 0).map _ = _
                rw [own]
                rfl
              by_cases none_ : items out = 0
              · obtain ⟨last, _, _, gone⟩ := destroyBuffer_last done.sound 0 0
                  (by simp [none_]) locked
                exact kept_noItems gone none_
              · obtain ⟨left, gone, _, same⟩ := destroyBuffer_kept done.sound 0 0
                  (by simp; omega)
                apply kept_ok gone
                intro one member payload' queued
                obtain ⟨id, rfl⟩ := (done.each one member).imp id (fun each => each payload' queued)
                rw [id, content_same same, content_locked done.find]
                exact reads

/-- A new buffer around a part of the packet. -/
theorem wrapped_dispatches (app : Application W) (memory : Bytes) (ttopic : TportTopic) (mTopics : List TportTopic) (world : W)
    (offset size : Nat) :
    ∃ buffers, (start memory mTopics world).buffers.addRef 0 = some buffers ∧ buffers.fresh = 1 ∧
      seen (dispatchNew app memory ttopic
          ⟨mTopics, buffers.obtain ⟨.packet offset, size, .handlerBuffer 0, false⟩, world⟩) =
        dispatched app ttopic mTopics world (inside (slice memory offset size)) ∧
      Kept memory 0 (dispatchNew app memory ttopic
          ⟨mTopics, buffers.obtain ⟨.packet offset, size, .handlerBuffer 0, false⟩, world⟩) := by
  obtain ⟨buffers, added, fresh, made⟩ := wrapped_made memory mTopics world offset size
  obtain ⟨own, foundOwn, _⟩ := made.own
  have reads := content_packet memory (by rw [foundOwn]; rfl) made.found rfl
  have both := made.dispatches app memory ttopic
  rw [reads] at both
  exact ⟨buffers, added, fresh, both⟩

/-- What two runs show is the same, and both keep what they delivered. -/
def Agree (memory : Bytes) (left right : Except Fault (PathState W × List Delivered)) : Prop :=
  seen left = seen right ∧ Kept memory 0 left ∧ Kept memory 0 right

theorem Agree.refl {result : Except Fault (PathState W × List Delivered)}
    (kept : Kept memory 0 result) : Agree memory result result := ⟨rfl, kept, kept⟩

/-- A fragment is treated alike in both paths. -/
theorem single_fragment (app : Application W) (memory : Bytes) (hdr : TportHeader)
    (fragment : hdr.mFragNum ≠ 0) (mTopics : List TportTopic) (world : W)
    (checked : checkHeader memory 0 memory.length = .ok true) :
    Agree memory (single app memory 0 hdr (start memory mTopics world))
      (body app memory 0 hdr 0 (start memory mTopics world)) := by
  have same : single app memory 0 hdr (start memory mTopics world) =
      body app memory 0 hdr 0 (start memory mTopics world) := by
    simp only [single, body, newBuffer, start_find, alive, checked, bind, Except.bind,
      if_pos fragment]
    rfl
  rw [same]
  apply Agree.refl
  simp only [body, newBuffer, bind, Except.bind, if_pos fragment]
  have topics : (start memory mTopics world).mTopics = mTopics := rfl
  rw [topics]
  cases findTopic mTopics memory 0 with
  | error fault => exact kept_error 0 fault
  | ok found =>
      cases found with
      | none => exact start_kept memory mTopics mTopics world
      | some ttopic =>
          dsimp only
          simp only [assemble, bind, Except.bind]
          cases inside (slice memory (0 + TportHeader.size + hdr.mTopicSize.toNat)
              hdr.mSize.toNat) with
          | error fault => exact kept_error 0 fault
          | ok payload =>
              dsimp only
              cases (Tport.assemble ttopic.frag hdr payload).1 with
              | none => exact start_kept memory mTopics _ world
              | some data =>
                  exact ((assembled_made memory _ world data _).dispatches app memory _).2

/-- A whole message in the packet's own buffer, and in one around it. -/
theorem single_whole (app : Application W) (memory : Bytes) (hdr : TportHeader)
    (whole : ¬ hdr.mFragNum ≠ 0) (mTopics : List TportTopic) (world : W)
    (checked : checkHeader memory 0 memory.length = .ok true) :
    Agree memory (single app memory 0 hdr (start memory mTopics world))
      (body app memory 0 hdr 0 (start memory mTopics world)) := by
  simp only [single, body, newBuffer, start_find, alive, checked, bind, Except.bind, if_neg whole]
  have topics : (start memory mTopics world).mTopics = mTopics := rfl
  rw [topics]
  cases findTopic mTopics memory 0 with
  | error fault => exact Agree.refl (kept_error 0 fault)
  | ok found =>
      cases found with
      | none => exact Agree.refl (start_kept memory mTopics mTopics world)
      | some ttopic =>
          obtain ⟨state, set_, sees, kept⟩ := inPlace_dispatches app memory ttopic mTopics world
            (TportHeader.size + hdr.mTopicSize.toNat) hdr.mSize.toNat
          obtain ⟨buffers, added, fresh, seesNew, keptNew⟩ := wrapped_dispatches app memory ttopic
            mTopics world (TportHeader.size + hdr.mTopicSize.toNat) hdr.mSize.toNat
          simp only [Nat.zero_add, set_, added, wrap, fresh]
          exact ⟨sees.trans seesNew.symm, kept, keptNew⟩

/-- For a packet whose first header has `SBF_MESSAGE_FLAG_LAST_IN_PACKET` the path for one message
and the loop agree, on well-formed and on malformed packets. -/
theorem handlerPacket_agrees (app : Application W) (memory : Bytes) (hdr : TportHeader)
    (first : header memory 0 = .ok hdr) (last : hdr.isLastInPacket = true)
    (mTopics : List TportTopic) (world : W) :
    handlerPacket app memory 0 (start memory mTopics world) =
        single app memory 0 hdr (start memory mTopics world) ∧
      Agree memory (single app memory 0 hdr (start memory mTopics world))
        (loop app memory 0 (memory.length + 1) 0 memory.length (start memory mTopics world)) := by
  refine ⟨?_, ?_⟩
  · simp only [handlerPacket, start_find, alive, first, last, bind, Except.bind, ↓reduceIte]
  · have round : loop app memory 0 (memory.length + 1) 0 memory.length (start memory mTopics world) =
        (checkHeader memory 0 memory.length).bind fun checked =>
          if checked then body app memory 0 hdr 0 (start memory mTopics world)
          else .ok (start memory mTopics world, []) := by
      cases checked : checkHeader memory 0 memory.length with
      | error fault => simp only [loop, checked, bind, Except.bind]
      | ok fine =>
          cases fine with
          | false =>
              simp only [loop, checked, bind, Except.bind]
              rfl
          | true => simp [loop, checked, first, last, bind, Except.bind]
    rw [round]
    cases checked : checkHeader memory 0 memory.length with
    | error fault =>
        simp only [single, start_find, alive, checked, bind, Except.bind]
        exact Agree.refl (kept_error 0 fault)
    | ok fine =>
        cases fine with
        | false =>
            simp only [single, start_find, alive, checked, bind, Except.bind]
            exact Agree.refl (start_kept memory mTopics mTopics world)
        | true =>
            by_cases fragment : hdr.mFragNum ≠ 0
            · exact single_fragment app memory hdr fragment mTopics world checked
            · exact single_whole app memory hdr fragment mTopics world checked

theorem name_visible : (0 : UInt8) ∉ [(116 : UInt8)] := by decide

/-- A node for the topic `t` with two subscriptions. -/
def twoSubs : TportTopic := ⟨0, ⟨[116], name_visible⟩, [], [1, 2], none, .zero⟩

/-- The first subscription is called at once, all others get items. -/
def bypassFirst : Application Nat where
  subs _ sub := ⟨false, true, sub == 1⟩
  mMessageCb called _ _ := called + 1

/-- A message of one byte on the topic `t`, and a byte behind it. -/
def oneByte : Bytes := [1, 0, 0, 2, 1, 116, 0, 42, 7]

theorem handlerPacket_agrees_oneByte :
    handlerPacket bypassFirst oneByte 0 (start oneByte [twoSubs] 0) =
        single bypassFirst oneByte 0 ⟨1, 0, 2, 1⟩ (start oneByte [twoSubs] 0) ∧
      Agree oneByte (single bypassFirst oneByte 0 ⟨1, 0, 2, 1⟩ (start oneByte [twoSubs] 0))
        (loop bypassFirst oneByte 0 (oneByte.length + 1) 0 oneByte.length
          (start oneByte [twoSubs] 0)) :=
  handlerPacket_agrees bypassFirst oneByte ⟨1, 0, 2, 1⟩ rfl rfl [twoSubs] 0

end Sbf.PacketPaths
