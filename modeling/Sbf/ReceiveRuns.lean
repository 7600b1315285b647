import Mathlib.Data.List.Pairwise
import Sbf.PubRoundTrip
import Sbf.ReceiveSteps

set_option autoImplicit false

namespace Sbf.Receiving

open Octets

section State

variable {state : Receiving} (sound : state.Sound)
include sound

theorem Sound.topics : Topics.Sound state.mTopics where
  addresses := sound.nodes.addresses
  names := sound.nodes.names
  nodes ttopic member :=
    ⟨(sound.nodes.linked ttopic member).distinct .sub, (sound.nodes.linked ttopic member).next⟩
  apart left leftIn right rightIn sub inLeft inRight := by
    have once := (List.nodup_append.mp sound.subs.once).2.1
    rw [Topics.attached, List.nodup_flatMap] at once
    have symmetric : Std.Symm (Function.onFun List.Disjoint (fun ttopic : TportTopic => ttopic.mSubs)) :=
      ⟨fun _ _ => List.Disjoint.symm⟩
    by_contra differs
    exact once.2.forall leftIn rightIn differs inLeft inRight

omit sound in
theorem destroy_ok {id : Nat} {before : Receiving} {buffers : RefMemory ReceivedBuffer}
    (ran : destroyBuffer before.hasPool (id + 1) id before.buffers = .ok buffers) :
    before.destroy id = .ok { before with buffers := buffers } := by
  simp only [Receiving.destroy, ran, bind, Except.bind, pure, Except.pure]

omit sound in
theorem destroy_lost {id : Nat} {before : Receiving} (pool : before.hasPool = state.hasPool)
    (same : before.buffers = state.buffers)
    (lost : state.hasPool = false ∧ ¬ Unread state.buffers ∧
      destroyBuffer state.hasPool (id + 1) id state.buffers = .error .freed) :
    ¬ state.Pooled ∧ before.destroy id = .error .freed := by
  obtain ⟨none_, read, failed⟩ := lost
  refine ⟨fun pooled => read (pooled none_), ?_⟩
  simp only [Receiving.destroy, pool, same, failed, bind, Except.bind]

/-- A message for one subscription: the item that is queued holds both. -/
theorem Sound.message {id : SubId} (serves : Topics.Serves state.mTopics id) {buffer : Nat}
    (held : buffer ∈ state.holders) :
    ∃ after, state.message id buffer = .ok after ∧ after.Sound ∧ Moves state after False := by
  obtain ⟨sub, found⟩ := sound.subs.find_attached serves
  have positive : 0 < state.holders.count buffer := List.count_pos_iff.mpr held
  obtain ⟨data, there⟩ := sound.buffers.held buffer positive
  by_cases calls : (!sub.mDestroyed && sub.mMessageCb) = true
  · have used : sub.mDestroyed = false := by
      simp only [Bool.and_eq_true, Bool.not_eq_true'] at calls
      exact calls.1
    by_cases bypass : sub.mQueueBypass = true
    · obtain ⟨quiet, old⟩ := sound.quiet_callback found used (.message id buffer) rfl
      refine ⟨{ state with reports := state.reports ++ [.message id buffer] }, ?_,
        { sound with quiet := quiet, marked := fun other inside => sound.marked other (old other inside) },
        .of_buffers rfl rfl rfl⟩
      simp only [Receiving.message, found, there, alive, bind, Except.bind, Sub.message,
        if_pos calls, if_pos bypass, pure, Except.pure]
    · let item : SubItem := ⟨sub.mQueue, id, some buffer⟩
      have more : (itemSubs { state with items := state.items ++ [item] }).Perm
          (id :: state.itemSubs) := by
        simp only [itemSubs, List.append_assoc, List.singleton_append, List.map_append,
          List.map_cons]
        exact List.perm_middle
      have more_buffers : (itemBuffers { state with items := state.items ++ [item] }).Perm
          (buffer :: state.itemBuffers) := by
        simp only [itemBuffers, List.append_assoc, List.singleton_append, List.filterMap_append]
        exact List.perm_middle
      obtain ⟨buffers, shared, buffers_sound, same⟩ := sound.buffers.addRef
        buffer (fun id => (holders { state with items := state.items ++ [item] }).count id) positive (by
          intro other
          simp only [holders, List.count_append, more_buffers.count_eq, List.count_cons, beq_iff_eq]
          simp only [mine, eq_comm (a := buffer)]
          omega)
      obtain ⟨subs, ran, subs_sound, same_subs⟩ := sound.subs.addRef found more
      refine ⟨{ state with subs := subs, buffers := buffers, items := state.items ++ [item] }, ?_,
        { sound with
          subs := subs_sound
          buffers := buffers_sound
          whole := ?_
          marked := sound.marked_still (stillDestroyed_same same_subs) },
        .of_unread rfl rfl fun _ => unread_congr same.find⟩
      · simp only [Receiving.message, found, there, Sub.message, if_pos calls, if_neg bypass, shared,
          Receiving.enqueueItem, ran, alive, bind, Except.bind, pure, Except.pure]
        rfl
      · intro one inside itself
        obtain ⟨alone, free, unlocked⟩ := sound.whole one inside itself
        refine ⟨alone, free, ?_⟩
        intro packet result
        rw [same.find] at result
        exact unlocked packet result
  · refine ⟨state, ?_, sound, .refl state⟩
    simp only [Receiving.message, found, there, alive, bind, Except.bind, Sub.message, if_neg calls,
      pure, Except.pure]

/-- The dispatch of a message starts. -/
theorem Sound.startDispatch {first : Handler.Handed} {rest : List Handler.Handed}
    (handed : state.handed = first :: rest) (free : state.dispatching = none)
    (buffers : RefMemory ReceivedBuffer) (buffer : Nat) (mine : Bool)
    (buffers_sound : BuffersSound buffers
      (fun id => state.holders.count id + if mine = true ∧ id = buffer then 1 else 0))
    (whose : mine = false → buffer = state.packet) (unread : Unread buffers ↔ Unread state.buffers) :
    ∃ after, { state with handed := rest, buffers := buffers }.startDispatch buffer mine
      first.sent = .ok after ∧ after.Sound ∧ Moves state after False := by
  have busy : ¬ state.Idle := by
    rintro ⟨_, nothing⟩
    rw [handed] at nothing
    cases nothing
  have called : state.packet ∈ state.holders :=
    List.mem_append_left _ (List.mem_append_left _ (sound.caller busy))
  have positive : 0 < state.holders.count buffer + if mine = true ∧ buffer = buffer then 1 else 0 := by
    cases mine with
    | true => simp
    | false =>
        rw [whose rfl]
        exact Nat.lt_of_lt_of_le (List.count_pos_iff.mpr called) (Nat.le_add_right _ _)
  obtain ⟨locked, data, found, ran, locked_sound, finds⟩ := buffers_sound.modify buffer
    positive (fun data => { data with mLocked := true }) (fun _ => rfl)
  refine ⟨{ state with
    handed := rest
    buffers := locked
    dispatching := some ⟨buffer, mine, first.sent.served⟩ }, ?_, {
    counts := sound.counts
    left := sound.left
    nodes := sound.nodes
    small := sound.small
    subs := sound.subs
    buffers := locked_sound.congr ?_
    caller := fun _ => sound.caller busy
    handed := ?_
    serving := ?_
    whole := ?_
    quiet := sound.quiet
    marked := sound.marked },
    .of_unread rfl rfl fun _ => (unread_modify found finds rfl).trans unread⟩
  · simp only [Receiving.startDispatch, Receiving.setBuffer, ran, alive, bind, Except.bind, pure,
      Except.pure]
  · intro id
    have before : state.mine = [] := by simp only [Receiving.mine, free]
    have others : state.holders = state.callers ++ state.itemBuffers := by
      rw [holders, before, List.append_nil]
    cases mine with
    | true =>
        simp only [others, true_and]
        simp only [holders, Receiving.mine, itemBuffers, List.count_append, List.count_singleton,
          beq_iff_eq, eq_comm (a := buffer)]
        omega
    | false =>
        simp only [others, Bool.false_eq_true, false_and, if_false, Nat.add_zero]
        simp only [holders, Receiving.mine, itemBuffers, List.append_nil]
  · intro one inside
    exact sound.handed one (handed ▸ List.mem_cons_of_mem _ inside)
  · rintro serving same
    cases same
    exact ⟨sound.handed first (handed ▸ List.mem_cons_self), whose⟩
  · intro one inside itself
    obtain ⟨alone, _⟩ := sound.whole one (handed ▸ List.mem_cons_of_mem _ inside) itself
    rw [handed] at alone
    cases alone
    cases inside

/-- The buffer of a message is the packet's, or a new one. -/
theorem Sound.handOn {first : Handler.Handed} {rest : List Handler.Handed}
    (handed : state.handed = first :: rest) (free : state.dispatching = none) :
    ∃ after, { state with handed := rest }.handOn first = .ok after ∧ after.Sound ∧
      Moves state after False := by
  have busy : ¬ state.Idle := by
    rintro ⟨_, nothing⟩
    rw [handed] at nothing
    cases nothing
  have called : 0 < state.holders.count state.packet := by
    apply List.count_pos_iff.mpr
    exact List.mem_append_left _ (List.mem_append_left _ (sound.caller busy))
  cases kind : first.source with
  | packet =>
      obtain ⟨_, _, unlocked⟩ := sound.whole first (handed ▸ List.mem_cons_self) kind
      obtain ⟨buffers, data, found, ran, buffers_sound, finds⟩ := sound.buffers.modify state.packet called
        (fun data => { data with mData := first.sent.payload }) (fun _ => rfl)
      obtain ⟨after, started, after_sound, moves⟩ := sound.startDispatch handed free buffers
        state.packet false (by simpa using buffers_sound) (fun _ => rfl)
        (unread_modify found finds rfl)
      refine ⟨after, ?_, after_sound, moves⟩
      simp only [Receiving.handOn, kind, Receiving.setData, found, unlocked data found,
        Receiving.setBuffer, ran, alive, bind, Except.bind, pure, Except.pure, Bool.false_eq_true,
        if_false]
      exact started
  | wrapped =>
      obtain ⟨shared, ran, shared_sound, same⟩ := sound.buffers.addRef state.packet
        (fun id => state.holders.count id + if id = state.packet then 1 else 0) called
        (fun _ => rfl)
      have older : state.packet < shared.fresh := by
        rw [same.fresh]
        exact sound.buffers.counted.lt_fresh (Nat.lt_of_lt_of_le called (Nat.le_add_right _ _))
      have wrapped := shared_sound.obtain
        ⟨first.sent.payload, .handlerBuffer state.packet, false⟩
        (fun id => state.holders.count id + if true = true ∧ id = shared.fresh then 1 else 0) (by
          rintro closure same
          cases same
          exact older) (by
          intro id
          simp only [BufferDestroyCb.handlerBuffer.injEq, eq_comm (a := state.packet), true_and]
          omega)
      obtain ⟨after, started, after_sound, moves⟩ := sound.startDispatch handed free _ shared.fresh
        true wrapped (by simp) ((shared_sound.unread_obtain (by simp)).trans (unread_congr same.find))
      refine ⟨after, ?_, after_sound, moves⟩
      simp only [Receiving.handOn, kind, ran, alive, bind, Except.bind]
      exact started
  | assembled =>
      have assembled := sound.buffers.obtain
        ⟨first.sent.payload, .fragmentBuffer, false⟩
        (fun id => state.holders.count id +
          if true = true ∧ id = state.buffers.fresh then 1 else 0) (by simp) (by simp)
      obtain ⟨after, started, after_sound, moves⟩ := sound.startDispatch handed free _
        state.buffers.fresh true assembled (by simp) (sound.buffers.unread_obtain (by simp))
      refine ⟨after, ?_, after_sound, moves⟩
      simp only [Receiving.handOn, kind]
      exact started

/-- `sbfHandler_packet` is called with a packet that it can read, or reads outside it, or comes
upon a stream that is freed. -/
theorem Sound.receive (bytes : Bytes) :
    (∃ after, state.receive bytes = .ok after ∧ after.Sound ∧ Moves state after False) ∨
      (Handler.packet bytes state.mTopics = .error .outside ∧
        state.receive bytes = .error .outside) ∨
      (state.Idle ∧ state.gone = true ∧ state.reader = .tcpMesh) ∧
        state.receive bytes = .error .freed := by
  by_cases idle : state.Idle
  · by_cases gone : state.gone = true
    · have result : state.receive bytes = state.late := by
        simp only [Receiving.receive, if_pos idle, if_pos gone]
      rw [result]
      rcases state.late_cases with same | ⟨reader, failed⟩
      · exact Or.inl ⟨state, same, sound, .refl state⟩
      · exact Or.inr (Or.inr ⟨⟨idle, gone, reader⟩, failed⟩)
    have sends := congrFun (Handler.sends_packet bytes) state.mTopics
    rcases Handler.packet_orderly bytes state.mTopics sound.topics with
      outside | ⟨topics, sent, ran, topics_sound, same, serves⟩
    · refine Or.inr (Or.inl ⟨outside, ?_⟩)
      rw [outside] at sends
      simp only [Receiving.receive, if_pos idle, if_neg gone]
      cases hands : Handler.handPacket bytes state.mTopics with
      | ok result =>
          simp only [Handler.sends, hands, bind, Except.bind, pure, Except.pure] at sends
          cases sends
      | error fault =>
          simp only [Handler.sends, hands, bind, Except.bind] at sends ⊢
          cases sends
          rfl
    · left
      rw [ran] at sends
      obtain ⟨⟨topics', handed⟩, hands, result⟩ := bind_ok sends
      cases result
      have served : ∀ one ∈ handed, ∀ sub ∈ one.sent.served, Topics.Serves topics sub := by
        intro one inside sub on
        rw [Handler.serves_congr same]
        exact serves one.sent (List.mem_map_of_mem inside) sub on
      have nodes : Topics.Nodes topics := {
        addresses := topics_sound.addresses
        names := topics_sound.names
        linked := by
          intro ttopic inside
          have shaped : Handler.shape ttopic ∈ state.mTopics.map Handler.shape :=
            same ▸ List.mem_map_of_mem inside
          obtain ⟨before, member, agree⟩ := List.mem_map.mp shaped
          simp only [Handler.shape, Prod.mk.injEq] at agree
          refine ⟨?_, (topics_sound.nodes ttopic inside).next⟩
          intro type
          cases type with
          | pub =>
              have pubs : before.mPubs = ttopic.mPubs := agree.2.2.1
              have distinct : before.mPubs.Nodup := (sound.nodes.linked before member).distinct .pub
              rw [pubs] at distinct
              exact distinct
          | sub => exact (topics_sound.nodes ttopic inside).distinct }
      have small : ∀ ttopic ∈ topics, ttopic.address < state.fresh := by
        intro ttopic inside
        have shaped : Handler.shape ttopic ∈ state.mTopics.map Handler.shape :=
          same ▸ List.mem_map_of_mem inside
        obtain ⟨before, member, agree⟩ := List.mem_map.mp shaped
        have address : before.address = ttopic.address := congrArg Prod.fst agree
        rw [← address]
        exact sound.small before member
      refine ⟨{ state with
        mTopics := topics
        buffers := state.buffers.obtain ⟨bytes, .null, false⟩
        callers := state.callers ++ [state.buffers.fresh]
        packet := state.buffers.fresh
        handed := handed }, ?_, {
        counts := ?_
        left := fun lost => absurd lost gone
        nodes := nodes
        small := small
        subs := sound.subs.topics_shape same
        buffers := sound.buffers.obtain _ _ (by simp) ?_
        caller := fun _ => List.mem_append_right _ (List.mem_singleton_self _)
        handed := served
        serving := ?_
        whole := ?_
        quiet := sound.quiet
        marked := sound.marked },
        .of_unread rfl rfl fun lost => absurd (hasPool_eq_false.mp lost).2 gone⟩
      · simp only [Receiving.receive, if_pos idle, if_neg gone, hands, bind, Except.bind, pure,
          Except.pure]
      · have size := congrArg List.length same
        rw [List.length_map, List.length_map] at size
        have counts := sound.counts
        simp only [streamRefs] at counts ⊢
        rw [size]
        exact counts
      · intro id
        simp only [holders, mine, itemBuffers, List.count_append, List.count_singleton, beq_iff_eq,
          eq_comm (a := state.buffers.fresh), reduceCtorEq, if_false]
        omega
      · intro serving dispatches
        rw [idle.1] at dispatches
        cases dispatches
      · intro one inside itself
        refine ⟨Handler.handPacket_alone hands one inside itself, idle.1, ?_⟩
        intro buffer found
        rw [RefMemory.find_obtain, if_pos rfl] at found
        rw [← Option.some.inj found]
  · exact Or.inl ⟨state, by simp only [Receiving.receive, if_neg idle], sound, .refl state⟩

/-- The next step of `sbfHandler_packet`. -/
theorem Sound.advance : (∃ after, state.advance = .ok after ∧ after.Sound ∧
    Moves state after False) ∨ (¬ state.Pooled ∧ state.advance = .error .freed) := by
  cases dispatches : state.dispatching with
  | none =>
      cases handed : state.handed with
      | nil =>
          exact Or.inl ⟨state, by simp only [Receiving.advance, dispatches, handed], sound,
            .refl state⟩
      | cons first rest =>
          obtain ⟨after, ran, after_sound, moves⟩ := sound.handOn handed dispatches
          refine Or.inl ⟨after, ?_, after_sound, moves⟩
          rw [← ran]
          simp only [Receiving.advance, dispatches, handed]
  | some serving =>
      obtain ⟨buffer, mine, left⟩ := serving
      have busy : ¬ state.Idle := by
        rintro ⟨free, _⟩
        rw [dispatches] at free
        cases free
      obtain ⟨serves, whose⟩ := sound.serving _ dispatches
      have elsewhere : ∀ one ∈ state.handed, one.source ≠ .packet := by
        intro one inside itself
        obtain ⟨_, free, _⟩ := sound.whole one inside itself
        rw [dispatches] at free
        cases free
      cases left with
      | cons sub left =>
          simp only [Receiving.advance, dispatches]
          have same : Receiving.mine { state with dispatching := some ⟨buffer, mine, left⟩ } =
              state.mine := by
            simp only [Receiving.mine, dispatches]
            cases mine <;> rfl
          have next : Sound { state with dispatching := some ⟨buffer, mine, left⟩ } :=
            { sound with
              buffers := sound.buffers.congr (by
                intro id
                simp only [holders, same]
                rfl)
              caller := fun _ => sound.caller busy
              serving := by
                rintro serving result
                cases result
                exact ⟨fun other inside => serves other (List.mem_cons_of_mem _ inside), whose⟩
              whole := fun one inside itself => absurd itself (elsewhere one inside) }
          have handed : buffer ∈ Receiving.holders { state with
              dispatching := some ⟨buffer, mine, left⟩ } := ?_
          · obtain ⟨after, ran, after_sound, moves⟩ :=
              next.message (serves sub List.mem_cons_self) handed
            have first : Moves state { state with dispatching := some ⟨buffer, mine, left⟩ } False :=
              .of_buffers rfl rfl rfl
            exact Or.inl ⟨after, ran, after_sound, first.trans moves⟩
          cases mine with
          | true =>
              exact List.mem_append_left _ (List.mem_append_right _ (List.mem_singleton_self _))
          | false =>
              have itself : buffer = state.packet := whose rfl
              rw [itself]
              exact List.mem_append_left _ (List.mem_append_left _ (sound.caller busy))
      | nil =>
          simp only [Receiving.advance, dispatches]
          have done : ∀ buffers, BuffersSound buffers
              (fun id => (holders { state with dispatching := none }).count id) →
              Sound { state with dispatching := none, buffers := buffers } := by
            intro buffers buffers_sound
            exact { sound with
              buffers := buffers_sound
              caller := fun _ => sound.caller busy
              serving := by
                intro serving result
                cases result
              whole := fun one inside itself => absurd itself (elsewhere one inside) }
          cases mine with
          | true =>
              simp only [if_true]
              rcases sound.buffers.destroy state.hasPool
                (buffer + 1) buffer (Nat.lt_succ_self _)
                (fun id => (holders { state with dispatching := none }).count id) (by
                  intro id
                  simp only [holders, Receiving.mine, dispatches, itemBuffers, List.count_append,
                    List.count_singleton, List.count_nil, beq_iff_eq, eq_comm (a := buffer)]
                  omega) with ⟨buffers, ran, buffers_sound, _, unread⟩ | lost
              · exact Or.inl ⟨_, destroy_ok ran, done buffers buffers_sound,
                  .of_unread rfl rfl unread⟩
              · exact Or.inr (destroy_lost rfl rfl lost)
          | false =>
              refine Or.inl ⟨_, rfl, done state.buffers (sound.buffers.congr ?_),
                .of_buffers rfl rfl rfl⟩
              intro id
              simp only [holders, Receiving.mine, dispatches]
              rfl

/-- The reader of a packet destroys it. -/
theorem Sound.drop (id : Nat) : (∃ after, state.drop id = .ok after ∧ after.Sound ∧
    Moves state after False) ∨ (¬ state.Pooled ∧ state.drop id = .error .freed) := by
  by_cases mayDrop : state.Idle ∧ id ∈ state.callers
  · obtain ⟨idle, inside⟩ := mayDrop
    simp only [Receiving.drop, idle, inside, and_self, if_true]
    rcases sound.buffers.destroy state.hasPool
      (id + 1) id (Nat.lt_succ_self _)
      (fun other => (holders { state with callers := state.callers.erase id }).count other) (by
        intro other
        have one := (List.perm_cons_erase inside).count_eq other
        simp only [List.count_cons, beq_iff_eq, eq_comm (a := id)] at one
        simp only [holders, mine, itemBuffers, List.count_append]
        omega) with ⟨buffers, ran, buffers_sound, _, unread⟩ | lost
    · refine Or.inl ⟨_, destroy_ok ran, { sound with
        buffers := buffers_sound
        caller := fun busy => absurd idle busy
        whole := ?_ }, .of_unread rfl rfl unread⟩
      intro one hands
      rw [idle.2] at hands
      cases hands
    · exact Or.inr (destroy_lost rfl rfl lost)
  · exact Or.inl ⟨state, by simp only [Receiving.drop, if_neg mayDrop], sound, .refl state⟩

/-- A queue's first item starts its callback, and keeps its references. -/
theorem Sound.dispatch (mQueue : Nat) :
    ∃ after, state.dispatch mQueue = .ok after ∧ after.Sound ∧ Moves state after False := by
  cases first : state.items.find? (·.mQueue = mQueue) with
  | none => exact ⟨state, by simp only [Receiving.dispatch, first], sound, .refl state⟩
  | some item =>
      have inside := List.mem_of_find?_eq_some first
      have moved : (state.items.erase item ++ (state.running ++ [item])).Perm
          (state.items ++ state.running) := by
        refine ((List.perm_append_singleton item state.running).append_left _).trans ?_
        exact List.perm_middle.trans ((List.perm_cons_erase inside).symm.append_right _)
      have used : item.closure ∈ state.itemSubs :=
        List.mem_map_of_mem (List.mem_append_left _ inside)
      obtain ⟨sub, found⟩ := Option.isSome_iff_exists.mp
        ((sound.subs.counted.find_isSome item.closure).mpr (by
          have positive := List.count_pos_iff.mpr used
          omega))
      have refers : ∀ buffer, item.mData = some buffer → ∃ data,
          state.buffers.find buffer = some data := by
        intro buffer result
        apply sound.buffers.held buffer
        apply List.count_pos_iff.mpr
        exact List.mem_append_right _
          (List.mem_filterMap.mpr ⟨item, List.mem_append_left _ inside, result⟩)
      obtain ⟨report, ran, calls⟩ : ∃ report : Report, state.startItem item = .ok { state with
          items := state.items.erase item
          running := state.running ++ [item]
          reports := if sub.mDestroyed then state.reports else state.reports ++ [report] } ∧
          report.callback = some item.closure := by
        cases data : item.mData with
        | none =>
            refine ⟨.ready item.closure, ?_, rfl⟩
            simp only [Receiving.startItem, found, data, alive, bind, Except.bind, pure, Except.pure]
        | some buffer =>
            obtain ⟨there, result⟩ := refers buffer data
            refine ⟨.message item.closure buffer, ?_, rfl⟩
            simp only [Receiving.startItem, found, data, result, alive, bind, Except.bind, pure,
              Except.pure]
      refine ⟨{ state with
        items := state.items.erase item
        running := state.running ++ [item]
        reports := if sub.mDestroyed then state.reports else state.reports ++ [report] },
        by simp only [Receiving.dispatch, first, ran], { sound with
        subs := sound.subs.users_perm (moved.map _)
        buffers := sound.buffers.congr ?_
        quiet := ?_
        marked := ?_ }, .of_buffers rfl rfl rfl⟩
      · intro id
        simp only [holders, mine, itemBuffers, List.count_append, (moved.filterMap _).count_eq]
      · cases destroyed : sub.mDestroyed with
        | true => exact sound.quiet
        | false => exact (sound.quiet_callback found destroyed report calls).1
      · intro other inside
        cases destroyed : sub.mDestroyed with
        | true =>
            rw [destroyed] at inside
            exact sound.marked other inside
        | false =>
            rw [destroyed] at inside
            exact sound.marked other
              ((sound.quiet_callback found destroyed report calls).2 other inside)

/-- An item is done: it drops what it holds. -/
theorem Sound.finish (item : SubItem) : (∃ after, state.finish item = .ok after ∧ after.Sound ∧
    Moves state after False) ∨ (¬ state.Pooled ∧ state.finish item = .error .freed) := by
  by_cases inside : item ∈ state.running
  · have fewer : (state.items ++ state.running).Perm
        (item :: (state.items ++ state.running.erase item)) :=
      ((List.perm_cons_erase inside).append_left _).trans List.perm_middle
    obtain ⟨subs, object, dropped, subs_sound, gone⟩ := sound.subs.drop
      item.closure (itemSubs { state with running := state.running.erase item }) (fewer.map _)
    have buffers_fewer := fewer.filterMap (·.mData)
    rw [List.filterMap_cons] at buffers_fewer
    -- The item's buffer is let go first, and after that its subscription.
    have released (buffers : RefMemory ReceivedBuffer)
        (ran : item.mData.elim (.ok { state with running := state.running.erase item })
          (Receiving.destroy · { state with running := state.running.erase item }) =
          .ok { state with running := state.running.erase item, buffers := buffers })
        (buffers_sound : BuffersSound buffers (fun id =>
          (holders { state with running := state.running.erase item }).count id))
        (kept : Kept state.buffers buffers
          (fun id => 0 < (holders { state with running := state.running.erase item }).count id)) :
        state.finish item = .ok { state with
          running := state.running.erase item, buffers := buffers, subs := subs } ∧
        Sound { state with
          running := state.running.erase item, buffers := buffers, subs := subs } := by
      constructor
      · simp only [Receiving.finish, if_pos inside, ran, bind, Except.bind, Receiving.release,
          dropped, alive, pure, Except.pure]
      · refine { sound with
          subs := subs_sound
          buffers := buffers_sound
          whole := ?_
          marked := sound.marked_still gone.stillDestroyed }
        intro one hands itself
        obtain ⟨alone, free, unlocked⟩ := sound.whole one hands itself
        refine ⟨alone, free, ?_⟩
        intro buffer found
        have called : state.packet ∈ state.callers := by
          apply sound.caller
          rintro ⟨_, nothing⟩
          rw [nothing] at hands
          cases hands
        rw [kept state.packet (List.count_pos_iff.mpr
          (List.mem_append_left _ (List.mem_append_left _ called)))] at found
        exact unlocked buffer found
    cases data : item.mData with
    | none =>
        rw [data] at buffers_fewer released
        obtain ⟨ran, after_sound⟩ := released state.buffers rfl (sound.buffers.congr (by
          intro id
          simp only [holders, mine, itemBuffers, List.count_append, buffers_fewer.count_eq]))
          (fun _ _ => rfl)
        exact Or.inl ⟨_, ran, after_sound, .of_buffers rfl rfl rfl⟩
    | some buffer =>
        rw [data] at buffers_fewer released
        rcases sound.buffers.destroy state.hasPool (buffer + 1) buffer (Nat.lt_succ_self _)
          (fun id => (holders { state with running := state.running.erase item }).count id) (by
            intro id
            have one := buffers_fewer.count_eq id
            simp only [List.count_cons, beq_iff_eq, eq_comm (a := buffer)] at one
            simp only [holders, mine, itemBuffers, List.count_append]
            simp only [List.filterMap_append, List.count_append] at one ⊢
            omega) with ⟨buffers, ran, buffers_sound, kept, unread⟩ | lost
        · obtain ⟨ran, after_sound⟩ := released buffers (destroy_ok ran) buffers_sound kept
          exact Or.inl ⟨_, ran, after_sound, .of_unread rfl rfl unread⟩
        · obtain ⟨unpooled, failed⟩ : ¬ state.Pooled ∧ Receiving.destroy buffer { state with
              running := state.running.erase item } = .error .freed := destroy_lost rfl rfl lost
          refine Or.inr ⟨unpooled, ?_⟩
          simp only [Receiving.finish, if_pos inside, data, Option.elim_some, failed, bind,
            Except.bind]
  · exact Or.inl ⟨state, by simp only [Receiving.finish, if_neg inside], sound, .refl state⟩

/-- One step keeps everything in order; or it reads outside a packet, or comes upon a stream that
is freed, or a buffer goes back to a pool that has gone. -/
theorem Sound.step (action : Action) :
    (∃ after, step action state = .ok after ∧ after.Sound ∧
      Moves state after (state.TakesLast action)) ∨
    (∃ bytes, action = .receive bytes ∧ Handler.packet bytes state.mTopics = .error .outside ∧
      step action state = .error .outside) ∨
    (state.Stale action ∨ ¬ state.Pooled) ∧ step action state = .error .freed := by
  cases action with
  | create topic mQueue mReadyCb mMessageCb =>
      rcases sound.create topic mQueue mReadyCb mMessageCb with next | ⟨stale, failed⟩
      · exact Or.inl next
      · exact Or.inr (Or.inr ⟨Or.inl stale, failed⟩)
  | destroySub sub => exact Or.inl (sound.destroySub sub)
  | setQueueBypass sub set => exact Or.inl (sound.setQueueBypass sub set)
  | addPub =>
      rcases sound.addPub with next | ⟨stale, failed⟩
      · exact Or.inl next
      · exact Or.inr (Or.inr ⟨Or.inl stale, failed⟩)
  | removePub => exact Or.inl sound.removePub
  | receive bytes =>
      rcases sound.receive bytes with next | ⟨outside, failed⟩ | ⟨stale, failed⟩
      · exact Or.inl next
      · exact Or.inr (Or.inl ⟨bytes, rfl, outside, failed⟩)
      · exact Or.inr (Or.inr ⟨Or.inl stale, failed⟩)
  | advance => exact sound.advance.imp_right fun ⟨lost, failed⟩ => Or.inr ⟨Or.inr lost, failed⟩
  | drop buffer =>
      exact (sound.drop buffer).imp_right fun ⟨lost, failed⟩ => Or.inr ⟨Or.inr lost, failed⟩
  | event => exact Or.inl sound.event
  | complete =>
      refine Or.inl ⟨_, rfl, ?_⟩
      unfold Receiving.complete
      split
      · exact ⟨{ sound with }, .of_buffers rfl rfl rfl⟩
      · exact ⟨sound, .refl state⟩
  | completeSub sub => exact Or.inl (sound.completeSub sub)
  | dispatch mQueue => exact Or.inl (sound.dispatch mQueue)
  | finish item =>
      exact (sound.finish item).imp_right fun ⟨lost, failed⟩ => Or.inr ⟨Or.inr lost, failed⟩

theorem Sound.stepped {action : Action} {after : Receiving}
    (ran : Receiving.step action state = .ok after) :
    after.Sound ∧ Moves state after (state.TakesLast action) := by
  rcases sound.step action with ⟨next, ran', sound', moves⟩ | ⟨_, -, -, failed⟩ | ⟨-, failed⟩
  · cases ran.symm.trans ran'
    exact ⟨sound', moves⟩
  · cases failed.symm.trans ran
  · cases failed.symm.trans ran

/-- What a step comes to is sound. -/
theorem Sound.next {action : Action} {after : Receiving}
    (ran : Receiving.step action state = .ok after) : after.Sound :=
  (sound.stepped ran).1

theorem Sound.moves {action : Action} {after : Receiving}
    (ran : Receiving.step action state = .ok after) :
    Moves state after (state.TakesLast action) :=
  (sound.stepped ran).2

omit sound in
theorem Stale.mesh {action : Action} (stale : state.Stale action) : state.reader = .tcpMesh := by
  cases action with
  | create topic mQueue mReadyCb mMessageCb => exact stale.2
  | addPub => exact stale.2
  | receive bytes => exact stale.2.2
  | _ => exact stale.elim

omit sound in
theorem step_stale {action : Action} (stale : state.Stale action) :
    step action state = .error .freed := by
  cases action with
  | create topic mQueue mReadyCb mMessageCb =>
      simp only [Receiving.step, Receiving.create, if_pos stale.1, late, stale.2]
  | addPub => simp only [Receiving.step, Receiving.addPub, if_pos stale.1, late, stale.2]
  | receive bytes =>
      simp only [Receiving.step, Receiving.receive, if_pos stale.1, if_pos stale.2.1, late, stale.2.2]
  | _ => exact stale.elim

omit sound in
/-- The buffers of a pool have to be gone when it goes. -/
theorem Moves.pooled {after : Receiving} {last : Prop} (moves : Moves state after last)
    (pooled : state.Pooled) :
    after.Pooled ↔ (last → state.reader = .udp → Unread state.buffers) := by
  constructor
  · intro after_pooled taken reader
    refine (moves.unread (.inr taken)).mp (after_pooled (hasPool_eq_false.mpr ⟨?_, ?_⟩))
    · rw [moves.reader, reader]
    · exact moves.gone.mpr (.inr taken)
  · intro unread lost
    obtain ⟨reader, gone⟩ := hasPool_eq_false.mp lost
    rw [moves.reader] at reader
    rcases moves.gone.mp gone with before | taken
    · have none_ := hasPool_eq_false.mpr ⟨reader, before⟩
      exact (moves.unread (.inl none_)).mpr (pooled none_)
    · exact (moves.unread (.inr taken)).mpr (unread taken reader)

end State

/-- The references to a buffer: those of readers, of `sbfHandler_packet` and of items, and
those of the buffers that are wrapped around a part of it. -/
def bufferRefs (state : Receiving) (id : Nat) : Nat :=
  state.holders.count id + wraps state.buffers id

/-- The references to a subscription: its own until it is removed, and those of items. -/
def subRefs (state : Receiving) (id : SubId) : Nat :=
  (held state.events state.mTopics).count id + state.itemSubs.count id

/-- Every reference that was taken is held or was dropped, once. What has no reference
left was freed, once, and nothing else was, nor has it gone with its pool; so what items refer to
is there, and the buffers are all gone when nobody but another buffer could refer to them. -/
structure Released (state : Receiving) : Prop where
  buffers_dropped : ∀ id,
    state.buffers.taken.count id = state.buffers.dropped.count id + state.bufferRefs id
  subs_dropped : ∀ id, state.subs.taken.count id = state.subs.dropped.count id + state.subRefs id
  buffers_freed : ∀ id, state.buffers.freed.count id =
    if id < state.buffers.fresh ∧ state.bufferRefs id = 0 then 1 else 0
  subs_freed : ∀ id, state.subs.freed.count id =
    if id < state.subs.fresh ∧ state.subRefs id = 0 then 1 else 0
  pooled : state.Pooled
  items_alive : ∀ item ∈ state.items ++ state.running, (state.subs.find item.closure).isSome ∧
    ∀ buffer, item.mData = some buffer → (state.buffers.find buffer).isSome
  all_freed : state.callers = [] → state.items = [] → state.running = [] →
    ∀ id, id < state.buffers.fresh → state.buffers.freed.count id = 1
  removed_freed : state.items = [] → state.running = [] → ∀ id, id < state.subs.fresh →
    id ∉ held state.events state.mTopics → state.subs.freed.count id = 1
  quiet : Quiet state.reports

/-- Buffers that are only held by each other are none: each would need a newer one. -/
theorem BuffersSound.none_held {memory : RefMemory ReceivedBuffer}
    (sound : BuffersSound memory (fun _ => 0)) (id : Nat) : wraps memory id = 0 := by
  by_contra wrapped
  induction left : memory.fresh - id using Nat.strongRecOn generalizing id with
  | _ left ih =>
      obtain ⟨wrapping, closure, found, closes⟩ : ∃ wrapping buffer,
          memory.find wrapping = some buffer ∧ buffer.mDestroyCb = .handlerBuffer id := by
        by_contra nobody
        apply wrapped
        rw [wraps, RefMemory.tally]
        apply RbTree.count_eq_zero
        intro key entry found
        rw [decide_eq_false_iff_not]
        exact fun closes => nobody ⟨key, entry.2, RefMemory.find_entry found, closes⟩
      have newer := sound.older wrapping closure id found closes
      have held := (sound.counted.find_isSome wrapping).mp (by rw [found]; rfl)
      have below := sound.counted.lt_fresh held
      rw [Nat.zero_add] at held
      exact ih (memory.fresh - wrapping) (by omega) wrapping (by omega) rfl

section State

variable {state : Receiving} (sound : state.Sound)
include sound

theorem Sound.items_alive (item : SubItem) (inside : item ∈ state.items ++ state.running) :
    (state.subs.find item.closure).isSome ∧
      ∀ buffer, item.mData = some buffer → (state.buffers.find buffer).isSome := by
  constructor
  · apply (sound.subs.counted.find_isSome item.closure).mpr
    have used : item.closure ∈ state.itemSubs := List.mem_map_of_mem inside
    have positive := List.count_pos_iff.mpr used
    omega
  · intro buffer data
    obtain ⟨there, found⟩ := sound.buffers.held buffer (List.count_pos_iff.mpr
      (List.mem_append_right _ (List.mem_filterMap.mpr ⟨item, inside, data⟩)))
    rw [found]
    rfl

/-- Nobody but readers and items holds a buffer for long. -/
theorem Sound.none_referred (callers : state.callers = []) (items : state.items = [])
    (running : state.running = []) (id : Nat) : state.bufferRefs id = 0 := by
  have idle : state.Idle := by
    by_contra busy
    have called := sound.caller busy
    rw [callers] at called
    cases called
  have nobody : state.holders = [] := by
    simp only [holders, mine, itemBuffers, callers, items, running, idle.1]
    rfl
  have alone : BuffersSound state.buffers (fun _ => 0) :=
    sound.buffers.congr (fun id => by rw [nobody, List.count_nil])
  rw [bufferRefs, nobody, List.count_nil, alone.none_held id]

theorem Sound.released (pooled : state.Pooled) : Released state where
  buffers_dropped := sound.buffers.counted.dropped
  subs_dropped := sound.subs.counted.dropped
  buffers_freed := sound.buffers.counted.freed
  subs_freed := sound.subs.counted.freed
  pooled := pooled
  items_alive := sound.items_alive
  all_freed := by
    intro callers items running id old
    rw [sound.buffers.counted.freed, if_pos]
    exact ⟨old, sound.none_referred callers items running id⟩
  removed_freed := by
    intro items running id old free
    have unused : state.itemSubs = [] := by
      rw [itemSubs, items, running]
      rfl
    rw [sound.subs.counted.freed, if_pos]
    refine ⟨old, ?_⟩
    rw [List.count_eq_zero.mpr free, unused, List.count_nil]
  quiet := sound.quiet

end State

/-- Every state of a run is good, and no step fails but one that reads outside a packet. -/
def Through (Good : Receiving → Prop) : List Action → Receiving → Prop
  | [], state => Good state
  | action :: rest, state => Good state ∧
      ((∃ next, step action state = .ok next ∧ Through Good rest next) ∨
        ∃ bytes, action = .receive bytes ∧ step action state = .error .outside)

theorem Through.head {Good : Receiving → Prop} {actions : List Action} {state : Receiving}
    (through : Through Good actions state) : Good state := by
  cases actions with
  | nil => exact through
  | cons action rest => exact through.1

theorem Through.run {Good : Receiving → Prop} {actions : List Action} {state : Receiving}
    (through : Through Good actions state) :
    (∃ last, Receiving.run actions state = .ok last ∧ Good last) ∨
      Receiving.run actions state = .error .outside := by
  induction actions generalizing state with
  | nil => exact .inl ⟨state, rfl, through⟩
  | cons action rest ih =>
      obtain ⟨-, ⟨next, ran, onward⟩ | ⟨bytes, rfl, failed⟩⟩ := through
      · simp only [Receiving.run, ran, bind, Except.bind]
        exact ih onward
      · exact .inr (by simp only [Receiving.run, failed, bind, Except.bind])

/-- Every step of a run meets a condition on the state that it is taken in. -/
def Along (Meets : Receiving → Action → Prop) : List Action → Receiving → Prop
  | [], _ => True
  | action :: rest, state => Meets state action ∧
      ∀ next, step action state = .ok next → Along Meets rest next

/-- The step does not come upon a stream that is freed, and if it takes the last reference to a
UDP stream no buffer that was read into is left. -/
def Meets (state : Receiving) (action : Action) : Prop :=
  ¬ state.Stale action ∧ (state.TakesLast action → state.reader = .udp → Unread state.buffers)

theorem Sound.through_iff {state : Receiving} (sound : state.Sound) (pooled : state.Pooled)
    (actions : List Action) : Through Released actions state ↔ Along Meets actions state := by
  induction actions generalizing state with
  | nil => exact iff_of_true (sound.released pooled) trivial
  | cons action rest ih =>
      have fresh (apart : Receiving.step action state ≠ .error .freed) : ¬ state.Stale action :=
        fun stale => apart (step_stale stale)
      rcases sound.step action with
        ⟨after, ran, after_sound, moves⟩ | ⟨bytes, rfl, -, failed⟩ | ⟨why, failed⟩
      · have keeps := moves.pooled pooled
        constructor
        · rintro ⟨-, ⟨next, ran', through⟩ | ⟨_, -, failed⟩⟩
          · cases ran.symm.trans ran'
            have after_pooled := through.head.pooled
            refine ⟨⟨fresh (by simp [ran]), keeps.mp after_pooled⟩, fun next ran' => ?_⟩
            cases ran.symm.trans ran'
            exact (ih after_sound after_pooled).mp through
          · cases ran.symm.trans failed
        · rintro ⟨⟨-, meets⟩, onward⟩
          exact ⟨sound.released pooled, .inl ⟨after, ran,
            (ih after_sound (keeps.mpr meets)).mpr (onward after ran)⟩⟩
      · refine iff_of_true ⟨sound.released pooled, .inr ⟨bytes, rfl, failed⟩⟩
          ⟨⟨fresh (by simp [failed]), False.elim⟩, fun next ran => ?_⟩
        cases failed.symm.trans ran
      · refine iff_of_false ?_ ?_
        · rintro ⟨-, ⟨next, ran, -⟩ | ⟨_, -, ran⟩⟩ <;> cases failed.symm.trans ran
        · rintro ⟨⟨meets, -⟩, -⟩
          exact why.elim meets fun unpooled => unpooled pooled

theorem new_pooled (reader : PacketReader) : (new reader).Pooled := by
  intro _ id data found
  cases found

/-- Whatever is received, created, destroyed, dispatched and removed, in any order: as long as no
step comes upon a stream that is gone, nor takes a UDP stream's pool away from its buffers, every
reference to a buffer or a subscription is dropped once, nothing is freed early or twice or used
after that, and no callback of a subscription comes after its destruction. A run then only stops
at a packet whose topics cannot be read inside it. Any other run goes wrong. -/
theorem run_released_iff (reader : PacketReader) (actions : List Action) :
    Through Released actions (new reader) ↔ Along Meets actions (new reader) :=
  (new_sound reader).through_iff (new_pooled reader) actions

/-- A packet with a message of the ticker's. -/
def tickMessage (payload : Bytes) : Bytes :=
  (Pub.block Pub.tick 0 TportHeader.lastInPacket payload).bytes

/-- The only subscription of a stream is destroyed and removed with a message for it on its queue,
which is dispatched after that. -/
def dispatchedLate : List Action :=
  [.complete, .create Pub.tick.mTopic 0 false true, .event, .receive (tickMessage [1]), .advance,
    .advance, .advance, .drop 0, .destroySub 0, .event, .dispatch 0, .finish ⟨0, 0, some 0⟩]

theorem dispatchedLate_freed : run dispatchedLate (new .udp) = .error .freed ∧
    ¬ Through Released dispatchedLate (new .udp) := by
  have failed : run dispatchedLate (new .udp) = .error .freed := rfl
  refine ⟨failed, fun through => ?_⟩
  rcases through.run with ⟨last, ran, -⟩ | outside
  · cases failed.symm.trans ran
  · cases failed.symm.trans outside

end Sbf.Receiving
