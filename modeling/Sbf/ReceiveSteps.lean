import Sbf.ReceivingSubs

set_option autoImplicit false

namespace Sbf

open Octets

/-- The subscription whose callback starts. -/
def Report.callback : Report → Option SubId
  | .message sub _ => some sub
  | .ready sub => some sub
  | .destroyed _ => none

/-- No callback of a subscription comes after its destruction. -/
def Quiet (reports : List Report) : Prop :=
  reports.Pairwise (fun early late => ∀ sub, early = .destroyed sub → late.callback ≠ some sub)

namespace Receiving

/-- The subscriptions that the items refer to. -/
def itemSubs (state : Receiving) : List SubId := (state.items ++ state.running).map (·.closure)

/-- The buffers that the items refer to. -/
def itemBuffers (state : Receiving) : List Nat :=
  (state.items ++ state.running).filterMap (·.mData)

/-- The buffer that `sbfHandler_packet` is going to destroy. -/
def mine (state : Receiving) : List Nat :=
  match state.dispatching with
  | some ⟨buffer, true, _⟩ => [buffer]
  | _ => []

/-- Who refers to buffers, apart from the buffers that wrap others. -/
def holders (state : Receiving) : List Nat := state.callers ++ state.mine ++ state.itemBuffers

/-- The references to the stream: those of subscriptions that are still to be added, of the nodes
and of publishers. -/
def streamRefs (state : Receiving) : Nat :=
  (state.events.filterMap joining).length + state.mTopics.length + state.pubRefs

/-- What every state that can be reached is like. -/
structure Sound (state : Receiving) : Prop where
  counts : state.mRefCount = state.streamRefs
  left : state.gone = true → state.mRefCount = 0
  nodes : Topics.Nodes state.mTopics
  small : ∀ ttopic ∈ state.mTopics, ttopic.address < state.fresh
  subs : SubsSound state.subs state.events state.mTopics state.itemSubs
  buffers : BuffersSound state.buffers (state.holders.count ·)
  caller : ¬ state.Idle → state.packet ∈ state.callers
  handed : ∀ one ∈ state.handed, ∀ sub ∈ one.sent.served, Topics.Serves state.mTopics sub
  serving : ∀ serving, state.dispatching = some serving →
    (∀ sub ∈ serving.left, Topics.Serves state.mTopics sub) ∧
      (serving.mine = false → serving.buffer = state.packet)
  whole : ∀ one ∈ state.handed, one.source = .packet → state.handed = [one] ∧
    state.dispatching = none ∧
    ∀ buffer, state.buffers.find state.packet = some buffer → buffer.mLocked = false
  quiet : Quiet state.reports
  marked : ∀ sub, .destroyed sub ∈ state.reports → sub < state.subs.fresh ∧
    ∀ found, state.subs.find sub = some found → found.mDestroyed = true

theorem new_sound (reader : PacketReader) : Sound (new reader) where
  counts := rfl
  left _ := rfl
  nodes := .nil
  small ttopic inside := by cases inside
  subs := empty_subsSound
  buffers := empty_buffersSound
  caller busy := absurd ⟨rfl, rfl⟩ busy
  handed one inside := by cases inside
  serving serving dispatches := by cases dispatches
  whole one inside := by cases inside
  quiet := .nil
  marked sub inside := by cases inside

/-- Subscriptions that are as they were, or as destroyed as they were. -/
def StillDestroyed (before after : RefMemory ReceivingSub) : Prop :=
  before.fresh ≤ after.fresh ∧ ∀ id found, id < before.fresh → after.find id = some found →
    ∃ old, before.find id = some old ∧ (old.mDestroyed = true → found.mDestroyed = true)

theorem stillDestroyed_set {before after : RefMemory ReceivingSub} {id : SubId}
    {sub changed : ReceivingSub} (found : before.find id = some sub)
    (fresh : after.fresh = before.fresh)
    (finds : ∀ other, after.find other = if other = id then some changed else before.find other)
    (destroyed : sub.mDestroyed = true → changed.mDestroyed = true) :
    StillDestroyed before after := by
  refine ⟨Nat.le_of_eq fresh.symm, ?_⟩
  intro other there _ result
  rw [finds] at result
  split at result
  · rename_i here
    rw [← Option.some.inj result, here]
    exact ⟨sub, found, destroyed⟩
  · exact ⟨there, result, fun same => same⟩

theorem stillDestroyed_same {before after : RefMemory ReceivingSub}
    (same : RefMemory.Same before after) : StillDestroyed before after := by
  refine ⟨Nat.le_of_eq same.fresh.symm, ?_⟩
  intro other found _ there
  rw [same.find] at there
  exact ⟨found, there, fun same => same⟩

theorem Dropped.stillDestroyed {before after : RefMemory ReceivingSub} {id : SubId}
    (dropped : Dropped before after id) : StillDestroyed before after :=
  ⟨Nat.le_of_eq dropped.fresh.symm, fun other found _ there =>
    ⟨found, dropped.found other found there, fun same => same⟩⟩

/-- The removal of this subscription takes the last reference to the stream. -/
def LastOne (id : SubId) (state : Receiving) : Prop :=
  state.mRefCount = 1 ∧ Topics.attached state.mTopics = [id]

/-- A step that takes the last reference to the stream. -/
def TakesLast (state : Receiving) : Action → Prop
  | .removePub => state.Idle ∧ state.pubRefs ≠ 0 ∧ state.mRefCount = 1
  | .event => state.Idle ∧ ∃ id rest sub, state.events = .remove id :: rest ∧
      state.subs.find id = some sub ∧ sub.mReady = true ∧ state.LastOne id
  | .completeSub id => state.Idle ∧ state.mReady = true ∧ ∃ sub,
      state.subs.find id = some sub ∧ sub.mRemoved = true ∧ state.LastOne id
  | _ => False

/-- A step that comes upon a stream that is freed. -/
def Stale (state : Receiving) : Action → Prop
  | .create _ _ _ _ | .addPub => state.gone = true ∧ state.reader = .tcpMesh
  | .receive _ => state.Idle ∧ state.gone = true ∧ state.reader = .tcpMesh
  | _ => False

/-- The pool is there as long as buffers of it are. -/
def Pooled (state : Receiving) : Prop := state.hasPool = false → Unread state.buffers

/-- What a step does to the stream and to its pool; `last` says that it takes the last reference. -/
structure Moves (before after : Receiving) (last : Prop) : Prop where
  reader : after.reader = before.reader
  gone : after.gone = true ↔ before.gone = true ∨ last
  unread : before.hasPool = false ∨ last → (Unread after.buffers ↔ Unread before.buffers)

theorem Moves.of_unread {before after : Receiving} (reader : after.reader = before.reader)
    (gone : after.gone = before.gone)
    (unread : before.hasPool = false → (Unread after.buffers ↔ Unread before.buffers)) :
    Moves before after False where
  reader := reader
  gone := by rw [gone, or_false]
  unread lost := unread (lost.resolve_right id)

theorem Moves.of_buffers {before after : Receiving} (reader : after.reader = before.reader)
    (gone : after.gone = before.gone) (buffers : after.buffers = before.buffers) :
    Moves before after False :=
  .of_unread reader gone (fun _ => by rw [buffers])

theorem hasPool_eq_false {state : Receiving} :
    state.hasPool = false ↔ state.reader = .udp ∧ state.gone = true := by
  unfold hasPool
  cases reader : state.reader <;> simp

theorem Moves.trans {before middle after : Receiving} (front : Moves before middle False)
    (back : Moves middle after False) : Moves before after False where
  reader := back.reader.trans front.reader
  gone := by rw [back.gone, front.gone, or_false]
  unread lost := by
    have pool := hasPool_eq_false.mp (lost.resolve_right id)
    refine (back.unread (.inl (hasPool_eq_false.mpr ?_))).trans (front.unread lost)
    exact ⟨front.reader.trans pool.1, front.gone.mpr (.inl pool.2)⟩

theorem Moves.refl (state : Receiving) : Moves state state False := .of_buffers rfl rfl rfl

theorem late_cases (state : Receiving) :
    state.late = .ok state ∨ (state.reader = .tcpMesh ∧ state.late = .error .freed) := by
  cases reader : state.reader with
  | tcpMesh => exact .inr ⟨rfl, by simp only [late, reader]⟩
  | udp => exact .inl (by simp only [late, reader])

section State

variable {state : Receiving} (sound : state.Sound)
include sound

/-- A stream that is referred to is still there. -/
theorem Sound.stays (held : state.mRefCount ≠ 0) : state.gone = false := by
  rw [Bool.eq_false_iff]
  exact fun gone => held (sound.left gone)

theorem Sound.marked_still {subs : RefMemory ReceivingSub}
    (still : StillDestroyed state.subs subs) (sub : SubId)
    (destroyed : .destroyed sub ∈ state.reports) : sub < subs.fresh ∧
      ∀ found, subs.find sub = some found → found.mDestroyed = true := by
  obtain ⟨old, gone⟩ := sound.marked sub destroyed
  refine ⟨Nat.lt_of_lt_of_le old still.1, ?_⟩
  intro found there
  obtain ⟨before, was, as_destroyed⟩ := still.2 sub found old there
  exact as_destroyed (gone before was)

/-- A callback may start for a subscription that is not destroyed. -/
theorem Sound.quiet_callback {sub : SubId} {found : ReceivingSub}
    (there : state.subs.find sub = some found) (used : found.mDestroyed = false) (report : Report)
    (calls : report.callback = some sub) :
    Quiet (state.reports ++ [report]) ∧
      ∀ other, .destroyed other ∈ state.reports ++ [report] → .destroyed other ∈ state.reports := by
  constructor
  · refine List.pairwise_append.mpr ⟨sound.quiet, List.pairwise_singleton _ _, ?_⟩
    rintro early inside late here other rfl
    rw [List.mem_singleton.mp here, calls]
    rintro same
    rw [← Option.some.inj same] at inside
    rw [(sound.marked sub inside).2 found there] at used
    cases used
  · intro other inside
    rcases List.mem_append.mp inside with old | new
    · exact old
    · rw [← List.mem_singleton.mp new] at calls
      cases calls

/-- Any change of subscriptions alone that keeps what they owe. -/
theorem Sound.with_subs {subs : RefMemory ReceivingSub}
    (subs_sound : SubsSound subs state.events state.mTopics state.itemSubs)
    (still : StillDestroyed state.subs subs) : Sound { state with subs := subs } :=
  { sound with
    subs := subs_sound
    marked := sound.marked_still still }

theorem Sound.setSub {id : SubId} {sub : ReceivingSub} (found : state.subs.find id = some sub)
    (f : ReceivingSub → ReceivingSub) (node : (f sub).mTportTopic = sub.mTportTopic)
    (destroyed : (f sub).mDestroyed = sub.mDestroyed) (removed : (f sub).mRemoved = sub.mRemoved) :
    ∃ subs, state.setSub f id = .ok { state with subs := subs } ∧
      Sound { state with subs := subs } ∧ subs.find id = some (f sub) := by
  obtain ⟨after, ran, subs_sound, fresh, finds⟩ :=
    sound.subs.modify found f node destroyed removed
  refine ⟨after, ?_, sound.with_subs subs_sound (stillDestroyed_set found fresh finds ?_), ?_⟩
  · simp only [Receiving.setSub, ran, alive, bind, Except.bind, pure, Except.pure]
  · rw [destroyed]
    exact fun same => same
  · rw [finds, if_pos rfl]

theorem Sound.create (topic : CString) (mQueue : Nat) (mReadyCb mMessageCb : Bool) :
    (∃ after, state.create topic mQueue mReadyCb mMessageCb = .ok after ∧ after.Sound ∧
      Moves state after False) ∨
    (state.gone = true ∧ state.reader = .tcpMesh) ∧
      state.create topic mQueue mReadyCb mMessageCb = .error .freed := by
  unfold Receiving.create
  split
  · rename_i gone
    rcases state.late_cases with same | ⟨reader, failed⟩
    · exact .inl ⟨state, same, sound, .refl state⟩
    · exact .inr ⟨⟨gone, reader⟩, failed⟩
  · rename_i gone
    have created := sound.subs.create
      ⟨⟨false, mMessageCb, false⟩, topic, mQueue, false, false, mReadyCb, none⟩ rfl rfl
    refine .inl ⟨_, rfl, { sound with
      counts := ?_, left := fun lost => absurd lost gone, subs := created, marked := ?_ },
      .of_buffers rfl rfl rfl⟩
    · have one : ([.add state.subs.fresh] : List SubEvent).filterMap joining =
          [state.subs.fresh] := rfl
      have counts := sound.counts
      simp only [streamRefs, List.filterMap_append, one, List.length_append,
        List.length_singleton] at counts ⊢
      omega
    · apply sound.marked_still
      refine ⟨Nat.le_succ _, ?_⟩
      intro id found old there
      rw [RefMemory.find_obtain, if_neg (Nat.ne_of_lt old)] at there
      exact ⟨found, there, fun same => same⟩

/-- A publisher comes to the stream. -/
theorem Sound.addPub :
    (∃ after, state.addPub = .ok after ∧ after.Sound ∧ Moves state after False) ∨
    (state.gone = true ∧ state.reader = .tcpMesh) ∧ state.addPub = .error .freed := by
  unfold Receiving.addPub
  split
  · rename_i reader
    split
    · rename_i gone
      refine .inr ⟨⟨gone, reader⟩, ?_⟩
      simp only [late, reader]
    · rename_i gone
      refine .inl ⟨_, rfl, { sound with
        counts := ?_, left := fun lost => absurd lost gone }, .of_buffers rfl rfl rfl⟩
      have counts := sound.counts
      simp only [streamRefs] at counts ⊢
      omega
  · exact .inl ⟨state, rfl, sound, .refl state⟩

/-- A publisher leaves, and may be the last one. -/
theorem Sound.removePub : ∃ after, state.removePub = .ok after ∧ after.Sound ∧
    Moves state after (state.TakesLast .removePub) := by
  have counts := sound.counts
  unfold Receiving.removePub
  split
  · rename_i leaves
    have held : state.mRefCount ≠ 0 := by
      simp only [streamRefs] at counts
      omega
    have kept := sound.stays held
    have fewer : state.mRefCount - 1 =
        (state.events.filterMap joining).length + state.mTopics.length + (state.pubRefs - 1) := by
      simp only [streamRefs] at counts
      omega
    by_cases last : state.mRefCount - 1 = 0
    · have empty : state.mTopics = [] := List.eq_nil_of_length_eq_zero (by omega)
      refine ⟨removeStream { state with
          mRefCount := state.mRefCount - 1, pubRefs := state.pubRefs - 1 }, ?_, { sound with
          counts := fewer, left := fun _ => last },
        ⟨rfl, ⟨fun _ => .inr ⟨leaves.1, leaves.2, by omega⟩, fun _ => rfl⟩, fun _ => .rfl⟩⟩
      simp only [last, empty, if_true, ne_eq, not_true_eq_false, if_false]
    · refine ⟨{ state with mRefCount := state.mRefCount - 1, pubRefs := state.pubRefs - 1 },
        by simp only [last, if_false], { sound with
          counts := fewer, left := fun gone => absurd gone (by simp [kept]) },
        ⟨rfl, ⟨fun gone => .inl gone, fun taken => ?_⟩, fun _ => .rfl⟩⟩
      rcases taken with gone | ⟨-, -, one⟩
      · exact gone
      · omega
  · rename_i stays
    refine ⟨state, rfl, sound, ⟨rfl, ⟨.inl, fun taken => ?_⟩, fun _ => .rfl⟩⟩
    exact taken.elim id fun last => absurd ⟨last.1, last.2.1⟩ stays

theorem Sound.setQueueBypass (id : SubId) (set : Bool) :
    ∃ after, state.setQueueBypass id set = .ok after ∧ after.Sound ∧ Moves state after False := by
  cases found : state.subs.find id with
  | none => exact ⟨state, by simp only [Receiving.setQueueBypass, found], sound, .refl state⟩
  | some sub =>
      obtain ⟨subs, ran, after, _⟩ :=
        sound.setSub found (fun sub => { sub with mQueueBypass := set }) rfl rfl rfl
      exact ⟨_, by simp only [Receiving.setQueueBypass, found, ran], after, .of_buffers rfl rfl rfl⟩

theorem Sound.destroySub (id : SubId) :
    ∃ after, state.destroySub id = .ok after ∧ after.Sound ∧ Moves state after False := by
  cases found : state.subs.find id with
  | none => exact ⟨state, by simp only [Receiving.destroySub, found], sound, .refl state⟩
  | some sub =>
      cases used : sub.mDestroyed with
      | true =>
          exact ⟨state, by simp only [Receiving.destroySub, found, used, if_true], sound,
            .refl state⟩
      | false =>
          obtain ⟨after, ran, subs_sound, fresh, finds⟩ := sound.subs.destroy found used
            (fun sub => { sub with mDestroyed := true }) rfl rfl rfl
          have still : StillDestroyed state.subs after :=
            stillDestroyed_set found fresh finds (fun _ => rfl)
          refine ⟨{ state with
            subs := after
            events := state.events ++ [.remove id]
            reports := state.reports ++ [.destroyed id] }, ?_,
            { sound with counts := ?_, subs := subs_sound, quiet := ?_, marked := ?_ },
            .of_buffers rfl rfl rfl⟩
          · simp only [Receiving.destroySub, found, used, Receiving.setSub, ran, alive, bind,
              Except.bind, pure, Except.pure, Bool.false_eq_true, if_false]
          · rw [sound.counts, streamRefs, streamRefs, List.filterMap_append]
            simp only [List.filterMap_cons, joining, List.filterMap_nil, List.append_nil]
          · refine List.pairwise_append.mpr ⟨sound.quiet, List.pairwise_singleton _ _, ?_⟩
            intro early _ late here other _
            rw [List.mem_singleton.mp here]
            simp [Report.callback]
          · intro other inside
            rcases List.mem_append.mp inside with old | new
            · exact sound.marked_still still other old
            · cases List.mem_singleton.mp new
              refine ⟨?_, ?_⟩
              · exact Nat.lt_of_lt_of_eq (sound.subs.counted.lt_fresh (sound.subs.positive found))
                  fresh.symm
              · intro other there
                rw [finds, if_pos rfl] at there
                rw [← Option.some.inj there]

/-- An item without a buffer is queued. -/
theorem Sound.enqueueReady {id : SubId} {sub : ReceivingSub}
    (found : state.subs.find id = some sub) (mQueue : Nat) :
    ∃ subs, state.enqueueItem ⟨mQueue, id, none⟩ =
        .ok { state with subs := subs, items := state.items ++ [⟨mQueue, id, none⟩] } ∧
      Sound { state with subs := subs, items := state.items ++ [⟨mQueue, id, none⟩] } ∧
      RefMemory.Same state.subs subs := by
  have more : (itemSubs { state with items := state.items ++ [⟨mQueue, id, none⟩] }).Perm
      (id :: state.itemSubs) := by
    simp only [itemSubs, List.append_assoc, List.singleton_append, List.map_append, List.map_cons]
    exact List.perm_middle
  obtain ⟨after, ran, subs_sound, same⟩ := sound.subs.addRef found more
  refine ⟨after, ?_, ?_, same⟩
  · simp only [Receiving.enqueueItem, ran, alive, bind, Except.bind, pure, Except.pure]
  · have buffers : itemBuffers { state with items := state.items ++ [⟨mQueue, id, none⟩] } =
        state.itemBuffers := by
      simp only [itemBuffers, List.append_assoc, List.singleton_append, List.filterMap_append,
        List.filterMap_cons]
    refine { sound with
      subs := subs_sound
      buffers := sound.buffers.congr ?_
      marked := sound.marked_still (stillDestroyed_same same) }
    intro other
    simp only [holders, mine, ← buffers]
    rfl

/-- What readying a subscription leaves as it is. -/
structure Readied (before after : Receiving) (id : SubId) (sub : ReceivingSub) : Prop where
  reader : after.reader = before.reader
  mRefCount : after.mRefCount = before.mRefCount
  gone : after.gone = before.gone
  buffers : after.buffers = before.buffers
  mTopics : after.mTopics = before.mTopics
  events : after.events = before.events
  idle : before.Idle → after.Idle
  found : after.subs.find id = some { sub with mReady := true }

theorem Sound.readySub {id : SubId} {sub : ReceivingSub} (found : state.subs.find id = some sub) :
    ∃ after, state.readySub id = .ok after ∧ after.Sound ∧ Readied state after id sub := by
  obtain ⟨subs, ran, middle, there⟩ :=
    sound.setSub found (fun sub => { sub with mReady := true }) rfl rfl rfl
  by_cases calls : (!sub.mDestroyed && sub.mReadyCb) = true
  · obtain ⟨subs', queued, after, same⟩ := middle.enqueueReady there sub.mQueue
    refine ⟨_, ?_, after, ⟨rfl, rfl, rfl, rfl, rfl, rfl, fun idle => idle, ?_⟩⟩
    · simp only [Receiving.readySub, found, alive, ran, bind, Except.bind, if_pos calls, queued]
    · exact (same.find id).trans there
  · refine ⟨_, ?_, middle, ⟨rfl, rfl, rfl, rfl, rfl, rfl, fun idle => idle, there⟩⟩
    simp only [Receiving.readySub, found, alive, ran, bind, Except.bind, if_neg calls, pure,
      Except.pure]

/-- A stream with these nodes. -/
def stream (state : Receiving) : TportStream Unit := ⟨0, (), 0, state.mReady, state.mTopics⟩

omit sound in
theorem ensureTopic_eq (topic : CString) : state.ensureTopic topic =
    ((state.stream.ensureTopic state.fresh topic).1,
      (state.stream.ensureTopic state.fresh topic).2.mTopics) := by
  simp only [Receiving.ensureTopic, TportStream.ensureTopic, TportStream.findTopic, stream]
  cases Topics.find state.mTopics topic.chars with
  | none => rfl
  | some ttopic => rfl

/-- The node of a topic is there, and everybody is where they were. -/
structure Ensured (state : Receiving) (made : TportTopic × List TportTopic) : Prop where
  nodes : Topics.Nodes made.2
  member : made.1 ∈ made.2
  small : ∀ ttopic ∈ made.2, ttopic.address < state.fresh + 1
  attached : (Topics.attached made.2).Perm (Topics.attached state.mTopics)
  origin : ∀ ttopic ∈ made.2, ∀ sub ∈ ttopic.mSubs,
    ∃ old ∈ state.mTopics, sub ∈ old.mSubs ∧ old.address = ttopic.address

theorem Sound.ensureTopic (topic : CString) : Ensured state (state.ensureTopic topic) := by
  have ensures := state.stream.ensureTopic_ensures sound.nodes state.fresh sound.small topic
  rw [ensureTopic_eq]
  refine ⟨ensures.nodes, ensures.member, ensures.fresh, ?_, ?_⟩
  · simp only [TportStream.ensureTopic]
    cases state.stream.findTopic topic with
    | some ttopic => exact .refl _
    | none =>
        exact (TportStream.insertTopic_perm state.mTopics (.new state.fresh topic)).flatMap_right
          (·.mSubs)
  · intro ttopic inside sub on
    obtain ⟨old, member, same, _, listed⟩ :=
      (ensures.onNode ttopic.address ttopic.mTopic .sub sub).mp ⟨ttopic, inside, rfl, rfl, on⟩
    exact ⟨old, member, listed, same⟩

omit sound in
theorem nodeRefs_eq (topic : CString) : state.nodeRefs topic + state.mTopics.length =
    state.mRefCount + (state.ensureTopic topic).2.length := by
  unfold Receiving.nodeRefs Receiving.ensureTopic
  cases Topics.find state.mTopics topic.chars with
  | some ttopic => rfl
  | none =>
      have longer := (TportStream.insertTopic_perm state.mTopics (.new state.fresh topic)).length_eq
      simp only [List.length_cons] at longer ⊢
      omega

end State

section Nodes

variable {state : Receiving} {events : List SubEvent} {id : SubId}

/-- `sbfSubAddEventCb` -/
theorem Sound.addEventCb (sound : state.Sound) (idle : state.Idle)
    (event : state.events = .add id :: events) :
    ∃ after, addEventCb id { state with events := events } = .ok after ∧ after.Sound ∧
      Moves state after False := by
  have subs := sound.subs
  rw [event] at subs
  have counts := sound.counts
  simp only [streamRefs, event, List.filterMap_cons, joining, List.length_cons] at counts
  have kept := sound.stays (by omega)
  obtain ⟨sub, found⟩ := subs.find_held id List.mem_cons_self
  have ensured := sound.ensureTopic sub.mTopic
  have made_eq : Receiving.ensureTopic sub.mTopic { state with events := events } =
      state.ensureTopic sub.mTopic := rfl
  have refs_eq : Receiving.nodeRefs sub.mTopic { state with events := events } =
      state.nodeRefs sub.mTopic := rfl
  have refs := state.nodeRefs_eq sub.mTopic
  generalize state.nodeRefs sub.mTopic = refs_ at refs refs_eq
  generalize state.ensureTopic sub.mTopic = made at ensured made_eq refs
  have apart : id ∉ Topics.attached state.mTopics := by
    have once := subs.once
    simp only [held, List.filterMap_cons, joining, List.cons_append, List.nodup_cons] at once
    exact fun inside => once.1 (List.mem_append_right _ inside)
  have new : id ∉ made.1.mSubs := by
    intro on
    exact apart (ensured.attached.mem_iff.mp (Topics.mem_attached.mpr ⟨made.1, ensured.member, on⟩))
  obtain ⟨others, before, after, _⟩ := Topics.attached_update ensured.nodes.addresses ensured.member
    (made.1.insertTail id .sub) (TportTopic.insertTail_address _ _ _)
  have joined : (Topics.attached (Topics.update made.2 (made.1.insertTail id .sub))).Perm
      (id :: Topics.attached state.mTopics) := by
    refine after.trans ?_
    have listed : (made.1.insertTail id .sub).mSubs = made.1.mSubs ++ [id] := rfl
    rw [listed, List.append_assoc]
    exact List.perm_middle.trans (((before.symm.trans ensured.attached)).cons id)
  have placed : ∀ ttopic ∈ Topics.update made.2 (made.1.insertTail id .sub), ∀ other ∈ ttopic.mSubs,
      (other = id ∧ ttopic.address = made.1.address) ∨
        ∃ old ∈ state.mTopics, other ∈ old.mSubs ∧ old.address = ttopic.address := by
    intro ttopic inside other on
    rcases (Topics.mem_update ensured.member (TportTopic.insertTail_address _ _ _) ttopic).mp inside
      with ⟨old, _⟩ | rfl
    · exact Or.inr (ensured.origin ttopic old other on)
    · rcases List.mem_append.mp on with old | here
      · right
        rw [TportTopic.insertTail_address]
        exact ensured.origin made.1 ensured.member other old
      · exact Or.inl ⟨List.mem_singleton.mp here, TportTopic.insertTail_address _ _ _⟩
  obtain ⟨attached, ran, subs_sound, fresh, finds⟩ := subs.attach made.1.address found
    (fun sub => { sub with mTportTopic := some made.1.address }) rfl rfl rfl joined placed
  have linked := ensured.nodes.linked made.1 ensured.member
  have middle : Sound { state with
      events := events
      mRefCount := refs_ - 1
      mTopics := Topics.update made.2 (made.1.insertTail id .sub)
      fresh := state.fresh + 1
      subs := attached } := {
    counts := by
      simp only [streamRefs, Topics.update, List.length_map]
      omega
    left := fun gone => absurd gone (by simp [kept])
    nodes := ensured.nodes.update ensured.member (TportTopic.insertTail_address _ _ _)
      (TportTopic.insertTail_mTopic _ _ _) (TportTopic.Linked.insertTail linked (show id ∉ made.1.attached .sub from new))
    small := by
      intro ttopic inside
      rcases (Topics.mem_update ensured.member (TportTopic.insertTail_address _ _ _) ttopic).mp inside
        with ⟨old, _⟩ | rfl
      · exact ensured.small ttopic old
      · exact ensured.small made.1 ensured.member
    subs := subs_sound
    buffers := sound.buffers
    caller := sound.caller
    handed := by
      intro one inside
      rw [idle.2] at inside
      cases inside
    serving := by
      intro serving dispatches
      rw [idle.1] at dispatches
      cases dispatches
    whole := sound.whole
    quiet := sound.quiet
    marked := sound.marked_still (stillDestroyed_set found fresh finds (fun same => same)) }
  have stored : attach id sub.mTopic { state with events := events } = .ok { state with
      events := events
      mRefCount := refs_ - 1
      mTopics := Topics.update made.2 (made.1.insertTail id .sub)
      fresh := state.fresh + 1
      subs := attached } := by
    simp only [Receiving.attach, made_eq, refs_eq, Receiving.setSub, ran, alive, bind, Except.bind, pure,
      Except.pure]
  have started : Receiving.addEventCb id { state with events := events } =
      (do
        let state ← attach id sub.mTopic { state with events := events }
        if state.mReady then state.readySub id else return state) := by
    simp only [Receiving.addEventCb, found, alive, bind, Except.bind, kept, Bool.false_eq_true,
      if_false]
  rw [started, stored]
  simp only [bind, Except.bind]
  split
  · obtain ⟨after, readied, after_sound, same⟩ := middle.readySub (show attached.find id = some _ by
      rw [finds, if_pos rfl])
    exact ⟨after, readied, after_sound, .of_buffers same.reader same.gone same.buffers⟩
  · exact ⟨_, rfl, middle, .of_buffers rfl rfl rfl⟩

theorem find_address {topics : List TportTopic} (nodes : Topics.Nodes topics)
    {ttopic : TportTopic} (member : ttopic ∈ topics) :
    topics.find? (·.address = ttopic.address) = some ttopic := by
  obtain ⟨found, result⟩ : ∃ found, topics.find? (·.address = ttopic.address) = some found := by
    apply Option.isSome_iff_exists.mp
    simp only [List.find?_isSome, decide_eq_true_eq]
    exact ⟨ttopic, member, rfl⟩
  have same : found.address = ttopic.address := by simpa using List.find?_some result
  obtain rfl := List.inj_on_of_nodup_map nodes.addresses (List.mem_of_find?_eq_some result)
    member same
  exact result

/-- What `detach` makes of the stream. -/
structure Detached (before after : Receiving) (id : SubId) (ttopic : TportTopic) : Prop where
  nodes : Topics.Nodes after.mTopics
  fewer : (Topics.attached before.mTopics).Perm (id :: Topics.attached after.mTopics)
  origin : ∀ other ∈ after.mTopics, other ∈ before.mTopics ∨ other = ttopic.unlink id .sub
  counts : after.mRefCount = after.streamRefs
  left : after.gone = true → after.mRefCount = 0
  gone : after.gone = true ↔ before.LastOne id
  rest : after = { before with
    mRefCount := after.mRefCount, mTopics := after.mTopics, gone := after.gone }

theorem detach_ok (nodes : Topics.Nodes state.mTopics) (counts : state.mRefCount = state.streamRefs)
    (kept : state.gone = false) {ttopic : TportTopic} (member : ttopic ∈ state.mTopics)
    (on : id ∈ ttopic.mSubs) :
    ∃ after, state.detach id ttopic = .ok after ∧ Detached state after id ttopic := by
  have linked := nodes.linked ttopic member
  obtain ⟨others, before, update, filter⟩ := Topics.attached_update nodes.addresses member
    (ttopic.unlink id .sub) (TportTopic.unlink_address _ _ _)
  have listed : (ttopic.unlink id .sub).mSubs = ttopic.mSubs.erase id := rfl
  have left : (Topics.attached state.mTopics).Perm
      (id :: ((ttopic.unlink id .sub).mSubs ++ others)) := by
    rw [listed]
    exact before.trans ((List.perm_cons_erase on).append_right others)
  have shorter := Topics.length_without nodes.addresses member
  simp only [streamRefs] at counts
  by_cases empty : (ttopic.unlink id .sub).mSubs = []
  · rw [empty, List.nil_append] at left
    have fewer := left.trans (filter.symm.cons id)
    have last : state.mRefCount - 1 = 0 ↔ state.LastOne id := by
      refine ⟨fun none_ => ⟨by omega, ?_⟩, fun one => by rw [one.1]⟩
      have nobody : state.mTopics.filter (·.address ≠ ttopic.address) = [] :=
        List.eq_nil_of_length_eq_zero (by omega)
      rw [nobody] at fewer
      exact List.perm_singleton.mp fewer
    have removed : state.removeTopic ttopic.address = .ok (state.mRefCount - 1 = 0, { state with
        mRefCount := state.mRefCount - 1
        mTopics := state.mTopics.filter (·.address ≠ ttopic.address) }) := by
      refine if_neg fun ⟨none_, some_⟩ => some_ (List.eq_nil_of_length_eq_zero ?_)
      omega
    refine ⟨{ state with
      mRefCount := state.mRefCount - 1
      mTopics := state.mTopics.filter (·.address ≠ ttopic.address)
      gone := state.mRefCount - 1 = 0 }, ?_, {
      nodes := nodes.filter _
      fewer := fewer
      origin := fun other inside => .inl (List.mem_filter.mp inside).1
      counts := by
        simp only [streamRefs]
        omega
      left := of_decide_eq_true
      gone := decide_eq_true_iff.trans last
      rest := rfl }⟩
    simp only [Receiving.detach, empty, if_true, removed, bind, Except.bind, decide_eq_true_eq,
      and_self, removeStream, pure, Except.pure]
    split
    · rename_i none_
      simp only [none_, decide_true]
    · rename_i some_
      simp only [some_, decide_false, kept]
  · refine ⟨{ state with mTopics := Topics.update state.mTopics (ttopic.unlink id .sub) },
      if_neg empty, {
      nodes := nodes.update member (TportTopic.unlink_address _ _ _) (TportTopic.unlink_mTopic _ _ _)
        (linked.unlink id .sub)
      fewer := left.trans (update.symm.cons id)
      origin := fun other inside =>
        ((Topics.mem_update member (TportTopic.unlink_address _ _ _) other).mp inside).imp_left
          And.left
      counts := by
        simp only [streamRefs, Topics.update, List.length_map]
        exact counts
      left := fun gone => absurd gone (by simp [kept])
      gone := ?_
      rest := rfl }⟩
    refine ⟨fun gone => absurd gone (by simp [kept]), fun last => absurd ?_ empty⟩
    rw [last.2] at left
    have nobody := left.length_eq
    simp only [List.length_cons, List.length_nil, List.length_append] at nobody
    exact List.eq_nil_of_length_eq_zero (by omega)

/-- A removal that is carried out, by its event or by the completion. -/
theorem Sound.removal (sound : state.Sound) (idle : state.Idle)
    (event : state.events = .remove id :: events ∨ state.events = events)
    (silent : .remove id ∉ events) {sub : ReceivingSub} (found : state.subs.find id = some sub)
    (destroyed : sub.mDestroyed = true) (ready : sub.mReady = true)
    (serves : Topics.Serves state.mTopics id) :
    ∃ after, removeEventCb id { state with events := events } = .ok after ∧ after.Sound ∧
      Moves state after (state.LastOne id) := by
  obtain ⟨ttopic, member, on⟩ := serves
  obtain ⟨sub', found', node⟩ := sound.subs.placed ttopic member id on
  obtain rfl : sub' = sub := Option.some.inj (found'.symm.trans found)
  have joins : events.filterMap joining = state.events.filterMap joining := by
    rcases event with shape | shape
    · rw [shape]
      rfl
    · rw [shape]
  have kept : state.gone = false := by
    have counts := sound.counts
    have some_ := List.length_pos_of_mem member
    rw [streamRefs] at counts
    exact sound.stays (by omega)
  have counts : Receiving.mRefCount { state with events := events } =
      streamRefs { state with events := events } := by
    rw [streamRefs, joins]
    exact sound.counts
  obtain ⟨middle, ran, detached⟩ :=
    @detach_ok { state with events := events } id sound.nodes counts kept ttopic member on
  have old : ∀ node ∈ middle.mTopics, ∀ other ∈ node.mSubs,
      ∃ old ∈ state.mTopics, other ∈ old.mSubs ∧ old.address = node.address := by
    intro node inside other on
    rcases detached.origin node inside with kept | rfl
    · exact ⟨node, kept, on, rfl⟩
    · exact ⟨ttopic, member, List.mem_of_mem_erase on, (TportTopic.unlink_address _ _ _).symm⟩
  obtain ⟨subs, object, dropped_, subs_sound, dropped⟩ :=
    sound.subs.detach event silent found destroyed detached.fewer old
  refine ⟨{ state with
    events := events, mRefCount := middle.mRefCount, mTopics := middle.mTopics
    gone := middle.gone, subs := subs }, ?_, {
    counts := by
      have after := detached.counts
      rw [detached.rest] at after
      exact after
    left := detached.left
    nodes := detached.nodes
    small := ?_
    subs := subs_sound
    buffers := sound.buffers
    caller := sound.caller
    handed := ?_
    serving := ?_
    whole := sound.whole
    quiet := sound.quiet
    marked := sound.marked_still dropped.stillDestroyed }, ⟨rfl, ?_, fun _ => .rfl⟩⟩
  · have released : release id middle = .ok { middle with subs := subs } := by
      have same : middle.subs = state.subs := by rw [detached.rest]
      simp only [Receiving.release, same, dropped_, alive, bind, Except.bind, pure, Except.pure]
    have reached : Receiving.removeEventCb id { state with events := events } =
        release id middle := by
      rw [kept] at ran
      simp only [Receiving.removeEventCb, found, alive, bind, Except.bind, ready, Bool.not_true,
        Bool.false_eq_true, if_false, kept, node, notNull, find_address sound.nodes member, on,
        not_true_eq_false, ran]
    rw [reached, released, detached.rest]
  · intro node inside
    rcases detached.origin node inside with kept | rfl
    · exact sound.small node kept
    · rw [TportTopic.unlink_address]
      exact sound.small ttopic member
  · intro one inside
    rw [idle.2] at inside
    cases inside
  · intro serving dispatches
    rw [idle.1] at dispatches
    cases dispatches
  · rw [kept]
    simp only [Bool.false_eq_true, false_or]
    exact detached.gone

/-- `sbfSubRemoveEventCb` -/
theorem Sound.removeEventCb (sound : state.Sound) (idle : state.Idle)
    (event : state.events = .remove id :: events) :
    ∃ after, removeEventCb id { state with events := events } = .ok after ∧ after.Sound ∧
      Moves state after (state.TakesLast .event) := by
  have subs := sound.subs
  rw [event] at subs
  obtain ⟨sub, found⟩ := subs.find_held id (List.mem_append_right _ subs.ordered.1)
  have taken : state.TakesLast .event ↔ sub.mReady = true ∧ state.LastOne id := by
    constructor
    · rintro ⟨-, other, rest, sub', events', found', ready, last⟩
      cases event.symm.trans events'
      cases found.symm.trans found'
      exact ⟨ready, last⟩
    · rintro ⟨ready, last⟩
      exact ⟨idle, id, events, sub, event, found, ready, last⟩
  cases ready : sub.mReady with
  | false =>
      obtain ⟨after, ran, subs_sound, fresh, finds⟩ := subs.mark found
        (fun sub => { sub with mRemoved := true }) rfl rfl rfl
      have counts := sound.counts
      rw [streamRefs, event] at counts
      have waits : ¬ state.TakesLast .event := fun last => by
        rw [taken, ready] at last
        cases last.1
      refine ⟨{ state with events := events, subs := after }, ?_, { sound with
        counts := counts
        subs := subs_sound
        marked := sound.marked_still (stillDestroyed_set found fresh finds (fun same => same)) },
        rfl, by simp only [waits, or_false], fun _ => .rfl⟩
      simp only [Receiving.removeEventCb, found, alive, bind, Except.bind, ready, Bool.not_false,
        if_true, Receiving.setSub, ran, pure, Except.pure]
  | true =>
      have owed := subs.waiting id sub found (List.mem_append_right _ subs.ordered.1)
      rw [List.count_cons_self] at owed
      have few : sub.mDestroyed.toNat ≤ 1 := Bool.toNat_le _
      have same : state.TakesLast .event ↔ state.LastOne id := by rw [taken, ready, eq_self, true_and]
      rw [same]
      refine sound.removal idle (Or.inl event) ?_ found ?_ ready
        (Topics.mem_attached.mp subs.ordered.1)
      · rw [← List.count_eq_zero]
        omega
      · cases destroyed : sub.mDestroyed with
        | true => rfl
        | false =>
            rw [destroyed, Bool.toNat_false] at owed
            omega

/-- The event thread takes its next event. -/
theorem Sound.event (sound : state.Sound) : ∃ after, state.event = .ok after ∧ after.Sound ∧
    Moves state after (state.TakesLast .event) := by
  have none_ (apart : ¬ state.TakesLast .event) : state.TakesLast .event ↔ False :=
    iff_false_intro apart
  by_cases idle : state.Idle
  · simp only [Receiving.event, if_pos idle]
    rcases events : state.events with _ | ⟨first, rest⟩
    · refine ⟨state, rfl, sound, ?_⟩
      have apart : ¬ state.TakesLast .event := by
        rintro ⟨_, _, _, _, some_, _⟩
        cases events.symm.trans some_
      rw [none_ apart]
      exact .refl state
    · cases first with
      | add id =>
          have apart : ¬ state.TakesLast .event := by
            rintro ⟨_, _, _, _, some_, _⟩
            cases events.symm.trans some_
          rw [none_ apart]
          exact sound.addEventCb idle events
      | remove id => exact sound.removeEventCb idle events
  · refine ⟨state, by simp only [Receiving.event, if_neg idle], sound, ?_⟩
    rw [none_ fun taken => idle taken.1]
    exact .refl state

/-- The completion comes to a subscription, and carries out a removal that waits. -/
theorem Sound.completeSub (sound : state.Sound) (id : SubId) :
    ∃ after, state.completeSub id = .ok after ∧ after.Sound ∧
      Moves state after (state.TakesLast (.completeSub id)) := by
  by_cases comes : state.Idle ∧ state.mReady = true ∧ Topics.Serves state.mTopics id
  · obtain ⟨sub, found⟩ := sound.subs.find_attached comes.2.2
    obtain ⟨middle, ran, middle_sound, readied⟩ := sound.readySub found
    have unfolded : state.completeSub id =
        if sub.mRemoved then middle.removeEventCb id else .ok middle := by
      simp only [Receiving.completeSub, if_pos comes, ran, readied.found, alive, bind, Except.bind]
      rfl
    have taken : state.TakesLast (.completeSub id) ↔ sub.mRemoved = true ∧ state.LastOne id := by
      constructor
      · rintro ⟨-, -, sub', found', removed, last⟩
        cases found.symm.trans found'
        exact ⟨removed, last⟩
      · rintro ⟨removed, last⟩
        exact ⟨comes.1, comes.2.1, sub, found, removed, last⟩
    rw [unfolded]
    cases removed : sub.mRemoved with
    | false =>
        have waits : state.TakesLast (.completeSub id) ↔ False := by simp [taken, removed]
        rw [waits]
        exact ⟨middle, rfl, middle_sound, .of_buffers readied.reader readied.gone readied.buffers⟩
    | true =>
        have serves : Topics.Serves middle.mTopics id := readied.mTopics ▸ comes.2.2
        have owed := middle_sound.subs.waiting id _ readied.found
          (List.mem_append_right _ (Topics.mem_attached.mpr serves))
        have few : sub.mDestroyed.toNat ≤ 1 := Bool.toNat_le _
        simp only [removed, Bool.toNat_true] at owed
        have silent : .remove id ∉ middle.events := by
          rw [← List.count_eq_zero]
          omega
        have destroyed : sub.mDestroyed = true := by
          cases destroyed : sub.mDestroyed with
          | true => rfl
          | false =>
              rw [destroyed, Bool.toNat_false] at owed
              omega
        obtain ⟨after, ran, after_sound, moves⟩ := middle_sound.removal (readied.idle comes.1)
          (Or.inr rfl) silent readied.found destroyed rfl serves
        have last : state.TakesLast (.completeSub id) ↔ middle.LastOne id := by
          rw [taken, removed, LastOne, LastOne, readied.mRefCount, readied.mTopics, eq_self, true_and]
        have pool : middle.hasPool = state.hasPool := by
          rw [hasPool, hasPool, readied.reader, readied.gone]
        refine ⟨after, ran, after_sound, ⟨moves.reader.trans readied.reader, ?_, ?_⟩⟩
        · rw [moves.gone, readied.gone, last]
        · rw [last, ← pool, ← readied.buffers]
          exact moves.unread
  · refine ⟨state, by simp only [Receiving.completeSub, if_neg comes], sound, ?_⟩
    have waits : state.TakesLast (.completeSub id) ↔ False := by
      apply iff_false_intro
      rintro ⟨idle, ready, _, _, _, last⟩
      refine comes ⟨idle, ready, ?_⟩
      apply Topics.mem_attached.mp
      rw [last.2]
      exact List.mem_singleton_self id
    rw [waits]
    exact .refl state

end Nodes

end Receiving

end Sbf
