import Sbf.ReceiveOrder

set_option autoImplicit false

/-! The receiving socket of a UDP stream: its read loop, the pool that the buffers are from, and
what the subscriptions get of what arrives. -/

namespace Sbf

open Octets

namespace Receiving

/-- A step that no buffer is made in, and that `sbfHandler_packet` has no part in. -/
structure Quieter (before after : Receiving) : Prop where
  fewer : ∀ buffer data, after.buffers.find buffer = some data →
    before.buffers.find buffer = some data
  callers : after.callers = before.callers
  dispatching : after.dispatching = before.dispatching
  handed : after.handed = before.handed

section Quieter

variable {id : SubId} {state after : Receiving}

theorem Beside.quieter (beside : Beside id state after) : Quieter state after where
  fewer buffer data found := by rwa [beside.buffers] at found
  callers := beside.callers
  dispatching := beside.dispatching
  handed := beside.handed

theorem Quieter.idle (quieter : Quieter state after) (idle : state.Idle) : after.Idle :=
  ⟨quieter.dispatching.trans idle.1, quieter.handed.trans idle.2⟩

/-- The steps that are not those of a reader or of `sbfHandler_packet`. -/
theorem Sound.step_quieter (sound : state.Sound) {action : Action}
    (receives : ∀ bytes, action ≠ .receive bytes) (drops : ∀ buffer, action ≠ .drop buffer)
    (advances : action ≠ .advance) (ran : Receiving.step action state = .ok after) :
    Quieter state after := by
  cases action with
  | create topic mQueue mReadyCb mMessageCb =>
      have beside : Beside 0 state after := create_beside ran
      exact beside.quieter
  | addPub =>
      have beside : Beside 0 state after := addPub_beside ran
      exact beside.quieter
  | removePub =>
      have beside : Beside 0 state after := removePub_beside ran
      exact beside.quieter
  | destroySub sub =>
      have beside : Beside sub state after := destroySub_beside ran
      exact beside.quieter
  | setQueueBypass sub set =>
      have beside : Beside (sub + 1) state after :=
        setQueueBypass_beside (fun here => absurd here (Nat.ne_of_lt sub.lt_succ_self)) ran
      exact beside.quieter
  | receive bytes => exact absurd rfl (receives bytes)
  | advance => exact absurd rfl advances
  | drop buffer => exact absurd rfl (drops buffer)
  | event =>
      have beside : Beside 0 state after := event_beside sound ran
      exact beside.quieter
  | complete =>
      cases ran
      unfold complete
      split <;> exact ⟨fun _ _ found => found, rfl, rfl, rfl⟩
  | completeSub sub =>
      have beside : Beside sub state after := completeSub_beside sound ran
      exact beside.quieter
  | dispatch mQueue =>
      simp only [Receiving.step, Receiving.dispatch] at ran
      split at ran
      · cases ran
        exact ⟨fun _ _ found => found, rfl, rfl, rfl⟩
      · obtain ⟨-, reports, rfl⟩ := startItem_spec ran
        exact ⟨fun _ _ found => found, rfl, rfl, rfl⟩
  | finish item =>
      obtain ⟨buffers, beside, fewer⟩ := finish_beside 0 ran
      exact ⟨fun buffer data found => fewer buffer data (beside.quieter.fewer buffer data found),
        beside.callers, beside.dispatching, beside.handed⟩

theorem advance_idle (idle : state.Idle) : state.advance = .ok state := by
  rw [Receiving.advance, idle.1, idle.2]

theorem advance_callers (sound : state.Sound) (ran : state.advance = .ok after) :
    after.callers = state.callers := by
  cases dispatches : state.dispatching with
  | none =>
      cases handed : state.handed with
      | nil =>
          rw [advance_idle ⟨dispatches, handed⟩] at ran
          cases ran
          rfl
      | cons first left =>
          have start : { state with handed := left }.handOn first = .ok after := by
            rw [← ran]
            simp only [Receiving.advance, dispatches, handed]
          obtain ⟨_, _, _, _, rfl, -⟩ := handOn_spec sound start
          rfl
  | some serving =>
      obtain ⟨buffer, mine, left⟩ := serving
      simp only [Receiving.advance, dispatches] at ran
      cases left with
      | nil =>
          simp only at ran
          split at ran
          · obtain ⟨buffers, rfl, -⟩ := destroy_spec ran
            rfl
          · cases ran
            rfl
      | cons other left =>
          obtain ⟨_, -, ⟨-, rfl⟩ | ⟨-, rfl⟩ | ⟨-, -, -, _, _, -, -, rfl⟩⟩ := message_spec ran <;> rfl

theorem finish_moves {item : SubItem} (inside : item ∈ state.running)
    (ran : state.finish item = .ok after) :
    after.items = state.items ∧ after.running = state.running.erase item := by
  unfold Receiving.finish at ran
  rw [if_pos inside] at ran
  obtain ⟨middle, let_go, released⟩ := bind_ok ran
  obtain ⟨⟨subs, last⟩, -, result⟩ := bind_ok released
  cases result
  cases data : item.mData with
  | none =>
      rw [data] at let_go
      cases let_go
      exact ⟨rfl, rfl⟩
  | some buffer =>
      rw [data] at let_go
      obtain ⟨buffers, rfl, -⟩ := destroy_spec let_go
      exact ⟨rfl, rfl⟩

theorem dispatch_moves {item : SubItem} (inside : item ∈ state.items)
    (ran : state.dispatch item.mQueue = .ok after) : ∃ first ∈ state.items,
    after.items = state.items.erase first ∧ after.running = state.running ++ [first] := by
  unfold Receiving.dispatch at ran
  split at ran
  · rename_i none_
    exact absurd inside fun inside => by
      simpa using List.find?_eq_none.mp none_ item inside
  · rename_i first found
    obtain ⟨-, reports, rfl⟩ := startItem_spec ran
    exact ⟨first, List.mem_of_find?_eq_some found, rfl, rfl⟩

/-- Nobody but its reader and the queues holds a packet. -/
theorem Sound.none_left (sound : state.Sound) (callers : state.callers = [])
    (items : state.items = []) (running : state.running = []) (buffer : Nat) :
    state.buffers.find buffer = none := by
  rw [← Option.not_isSome_iff_eq_none, sound.buffers.counted.find_isSome]
  intro held
  exact Nat.ne_of_gt held (sound.none_referred callers items running buffer)

end Quieter

end Receiving

/-- The fields of `struct sbfUdpMulticastImpl` and the stream that reads from it; when that has
gone the socket is closed. `waiting` is what the kernel holds, `reading` is `i` of
`sbfUdpMulticast_read` while that runs, and `inHand` is its buffer while the callback has it.
`arrived`, `taken` and `steps` are history. -/
structure UdpReceiver where
  waiting : List Bytes
  reading : Option Nat
  inHand : Option Nat
  receiving : Receiving
  arrived : List Bytes
  taken : List Bytes
  steps : List Receiving.Action

namespace UdpReceiver

/-- `SBF_UDP_MULTICAST_SIZE_LIMIT` -/
def sizeLimit : Nat := 65536

/-- `SBF_UDP_HANDLER_READ_LIMIT` -/
def readLimit : Nat := 64

def new : UdpReceiver := ⟨[], none, none, .new .udp, [], [], []⟩

/-- The network puts a datagram into the socket. -/
def arrive (datagram : Bytes) (state : UdpReceiver) : UdpReceiver :=
  if state.receiving.gone then state
  else { state with
    waiting := state.waiting ++ [datagram], arrived := state.arrived ++ [datagram] }

/-- `sbfUdpHandlerReadEventCb`, up to the loop of `sbfUdpMulticast_read`. -/
def readEventCb (state : UdpReceiver) : UdpReceiver :=
  if state.receiving.gone = false ∧ state.reading = none then { state with reading := some 0 }
  else state

/-- A step of the receiving side. -/
def act (action : Receiving.Action) (state : UdpReceiver) : Except Fault UdpReceiver := do
  let receiving ← Receiving.step action state.receiving
  return { state with receiving := receiving, steps := state.steps ++ [action] }

/-- `sbfUdpHandlerReadBufferCb` with the buffer of a datagram. -/
def readBufferCb (bytes : Bytes) (state : UdpReceiver) : Except Fault UdpReceiver :=
  { state with inHand := some state.receiving.buffers.fresh }.act (.receive bytes)

/-- A round of `sbfUdpMulticast_read`. With nothing to read, an empty datagram or an error the
buffer goes back unused and the loop ends. -/
def readRound (failed : Bool) (state : UdpReceiver) : Except Fault UdpReceiver :=
  match state.reading, state.inHand with
  | some i, none =>
      if i < readLimit ∧ failed = false then
        match state.waiting with
        | [] => .ok { state with reading := none }
        | datagram :: waiting =>
            let state := { state with waiting := waiting, taken := state.taken ++ [datagram] }
            if datagram.take sizeLimit = [] then .ok { state with reading := none }
            else state.readBufferCb (datagram.take sizeLimit)
      else .ok { state with reading := none }
  | _, _ => .ok state

/-- The callback has returned: the buffer is destroyed and the loop goes on. -/
def readDone (state : UdpReceiver) : Except Fault UdpReceiver :=
  match state.inHand with
  | none => .ok state
  | some buffer =>
      if state.receiving.Idle then
        { state with inHand := none, reading := state.reading.map (· + 1) }.act (.drop buffer)
      else .ok state

/-- What is done besides: the loop's own steps are not, and the thread is the loop's while it
runs. -/
def Besides (state : UdpReceiver) : Receiving.Action → Prop
  | .receive _ | .drop _ => False
  | .event | .complete | .completeSub _ | .removePub => state.reading = none
  | _ => True

instance (state : UdpReceiver) (action : Receiving.Action) : Decidable (state.Besides action) := by
  cases action <;> simp only [Besides] <;> infer_instance

inductive UdpAction where
  | arrive (datagram : Bytes)
  | readEvent
  | readRound (failed : Bool)
  | readDone
  | other (action : Receiving.Action)

def step : UdpAction → UdpReceiver → Except Fault UdpReceiver
  | .arrive datagram => fun state => .ok (state.arrive datagram)
  | .readEvent => fun state => .ok state.readEventCb
  | .readRound failed => readRound failed
  | .readDone => readDone
  | .other action => fun state => if state.Besides action then state.act action else .ok state

def run : List UdpAction → UdpReceiver → Except Fault UdpReceiver
  | [], state => .ok state
  | action :: rest, state => step action state >>= run rest

/-- The datagrams that a reader has given to `sbfHandler_packet`. -/
def packets (steps : List Receiving.Action) : List Bytes :=
  steps.filterMap fun action =>
    match action with
    | .receive bytes => some bytes
    | _ => none

/-- What holds between steps: the loop has at most one buffer, which is the only one that its
reader has to destroy. -/
structure Tidy (state : UdpReceiver) : Prop where
  sound : state.receiving.Sound
  reader : state.receiving.reader = .udp
  callers : state.receiving.callers = state.inHand.toList
  hand : ∀ buffer, state.inHand = some buffer → ∃ i, state.reading = some i ∧ i < readLimit
  limit : ∀ i, state.reading = some i → i ≤ readLimit
  shut : state.receiving.gone = true → state.reading = none
  all : state.taken ++ state.waiting = state.arrived
  history : Receiving.run state.steps (.new .udp) = .ok state.receiving
  packets : packets state.steps =
    (state.taken.map (·.take sizeLimit)).filter (fun datagram => datagram ≠ [])

theorem new_tidy : Tidy new where
  sound := Receiving.new_sound .udp
  reader := rfl
  callers := rfl
  hand buffer held := by cases held
  limit i reads := by cases reads
  shut gone := by cases gone
  all := rfl
  history := rfl
  packets := rfl

section Tidy

variable {state after : UdpReceiver}

theorem Tidy.idle (tidy : state.Tidy) (free : state.inHand = none) : state.receiving.Idle := by
  by_contra busy
  have called := tidy.sound.caller busy
  rw [tidy.callers, free] at called
  cases called

theorem act_spec {action : Receiving.Action} (ran : state.act action = .ok after) :
    ∃ receiving, Receiving.step action state.receiving = .ok receiving ∧
      after = { state with receiving := receiving, steps := state.steps ++ [action] } := by
  obtain ⟨receiving, stepped, ran⟩ := bind_ok ran
  cases ran
  exact ⟨receiving, stepped, rfl⟩

theorem run_snoc {actions : List Receiving.Action} {first middle last : Receiving}
    {action : Receiving.Action} (ran : Receiving.run actions first = .ok middle)
    (stepped : Receiving.step action middle = .ok last) :
    Receiving.run (actions ++ [action]) first = .ok last := by
  induction actions generalizing first with
  | nil =>
      cases ran
      simp only [List.nil_append, Receiving.run, stepped, bind, Except.bind]
  | cons one rest ih =>
      obtain ⟨next, here, onward⟩ := bind_ok ran
      simp only [List.cons_append, Receiving.run, here, bind, Except.bind]
      exact ih onward

theorem packets_snoc (steps : List Receiving.Action) (action : Receiving.Action) :
    packets (steps ++ [action]) = packets steps ++ packets [action] := List.filterMap_append

theorem besides_apart {action : Receiving.Action} (besides : state.Besides action) :
    (∀ bytes, action ≠ .receive bytes) ∧ ∀ buffer, action ≠ .drop buffer := by
  constructor
  · rintro bytes rfl
    exact besides
  · rintro buffer rfl
    exact besides

/-- The stream only goes while nothing is read. -/
theorem Besides.free {action : Receiving.Action} (besides : state.Besides action)
    (taken : state.receiving.TakesLast action) : state.reading = none := by
  cases action with
  | removePub | event | completeSub => exact besides
  | _ => exact taken.elim

/-- The steps besides. -/
theorem Tidy.act (tidy : state.Tidy) {action : Receiving.Action} (besides : state.Besides action)
    (ran : state.act action = .ok after) : after.Tidy := by
  obtain ⟨receives, drops⟩ := besides_apart besides
  obtain ⟨receiving, stepped, rfl⟩ := act_spec ran
  have moves := tidy.sound.moves stepped
  have callers : receiving.callers = state.receiving.callers := by
    by_cases advances : action = .advance
    · subst advances
      exact Receiving.advance_callers tidy.sound stepped
    · exact (tidy.sound.step_quieter receives drops advances stepped).callers
  refine { tidy with
    sound := tidy.sound.next stepped
    reader := moves.reader.trans tidy.reader
    callers := callers.trans tidy.callers
    shut := fun gone => (moves.gone.mp gone).elim tidy.shut besides.free
    history := run_snoc tidy.history stepped
    packets := ?_ }
  rw [packets_snoc, tidy.packets, show UdpReceiver.packets [action] = [] from ?_, List.append_nil]
  cases action with
  | receive bytes => exact absurd rfl (receives bytes)
  | _ => rfl

theorem Tidy.readDone (tidy : state.Tidy) (ran : state.readDone = .ok after) : after.Tidy := by
  unfold UdpReceiver.readDone at ran
  split at ran
  · cases ran
    exact tidy
  · rename_i buffer held
    split at ran
    · rename_i idle
      obtain ⟨receiving, stepped, rfl⟩ := act_spec ran
      obtain ⟨i, reads, below⟩ := tidy.hand buffer held
      obtain ⟨callers, buffers, rfl, -, dropped⟩ := Receiving.drop_spec stepped
      refine { tidy with
        sound := tidy.sound.next stepped
        callers := ?_
        hand := fun _ held => by cases held
        limit := ?_
        shut := fun gone => by simp only [tidy.shut gone, Option.map_none]
        history := run_snoc tidy.history stepped
        packets := ?_ }
      · have one : state.receiving.callers = [buffer] := by rw [tidy.callers, held]; rfl
        exact (dropped idle).trans (by simp [one])
      · intro j next
        simp only [reads, Option.map_some] at next
        cases next
        exact below
      · rw [packets_snoc, tidy.packets]
        exact List.append_nil _
    · cases ran
      exact tidy

theorem Tidy.readRound (tidy : state.Tidy) {failed : Bool}
    (ran : state.readRound failed = .ok after) : after.Tidy := by
  unfold UdpReceiver.readRound at ran
  split at ran
  case h_1 i reads free =>
      have stops : Tidy { state with reading := none } := { tidy with
        hand := fun buffer held => by cases free.symm.trans held
        limit := fun i reads => by cases reads
        shut := fun _ => rfl }
      split at ran
      · rename_i goes
        split at ran
        · cases ran
          exact stops
        · rename_i datagram waiting waits
          have taken : state.taken ++ [datagram] ++ waiting = state.arrived := by
            rw [← tidy.all, waits, List.append_assoc, List.singleton_append]
          simp only at ran
          split at ran
          · rename_i empty
            cases ran
            refine { stops with all := taken, packets := ?_ }
            rw [stops.packets, List.map_append, List.filter_append]
            simp [empty]
          · rename_i full
            obtain ⟨receiving, stepped, rfl⟩ := act_spec ran
            have kept : ¬ state.receiving.gone = true := fun gone => by
              cases reads.symm.trans (tidy.shut gone)
            obtain ⟨mTopics, handed, rfl⟩ : ∃ mTopics handed, receiving = { state.receiving with
                mTopics := mTopics
                buffers := state.receiving.buffers.obtain ⟨datagram.take sizeLimit, .null, false⟩
                callers := state.receiving.callers ++ [state.receiving.buffers.fresh]
                packet := state.receiving.buffers.fresh
                handed := handed } := by
              simp only [Receiving.step, Receiving.receive, if_pos (tidy.idle free), if_neg kept]
                at stepped
              obtain ⟨⟨mTopics, handed⟩, -, result⟩ := bind_ok stepped
              cases result
              exact ⟨mTopics, handed, rfl⟩
            refine { tidy with
              sound := tidy.sound.next stepped
              callers := ?_
              hand := fun _ _ => ⟨i, reads, goes.1⟩
              all := taken
              history := run_snoc tidy.history stepped
              packets := ?_ }
            · simp only [tidy.callers, free]
              rfl
            · rw [packets_snoc, tidy.packets, List.map_append, List.filter_append]
              simp [full, UdpReceiver.packets]
      · cases ran
        exact stops
  case h_2 =>
      cases ran
      exact tidy

theorem Tidy.step (tidy : state.Tidy) {action : UdpAction}
    (ran : UdpReceiver.step action state = .ok after) : after.Tidy := by
  cases action with
  | arrive datagram =>
      cases ran
      unfold arrive
      split
      · exact tidy
      · refine { tidy with all := ?_ }
        rw [← List.append_assoc, tidy.all]
  | readEvent =>
      cases ran
      unfold readEventCb
      split
      · rename_i free
        refine { tidy with hand := fun buffer held => ?_, limit := ?_, shut := fun gone => ?_ }
        · obtain ⟨i, reads, -⟩ := tidy.hand buffer held
          cases free.2.symm.trans reads
        · rintro i reads
          cases reads
          exact Nat.zero_le _
        · cases free.1.symm.trans gone
      · exact tidy
  | readRound failed => exact tidy.readRound ran
  | readDone => exact tidy.readDone ran
  | other action =>
      simp only [UdpReceiver.step] at ran
      split at ran
      · rename_i besides
        exact tidy.act besides ran
      · cases ran
        exact tidy

theorem Tidy.run (tidy : state.Tidy) {actions : List UdpAction}
    (ran : UdpReceiver.run actions state = .ok after) : after.Tidy := by
  induction actions generalizing state with
  | nil =>
      cases ran
      exact tidy
  | cons action rest ih =>
      obtain ⟨next, here, onward⟩ := bind_ok ran
      exact ih (tidy.step here) onward

/-- The steps of the receiving side are those that are asked for and the loop's own. -/
theorem step_steps {action : UdpAction} (ran : UdpReceiver.step action state = .ok after) :
    ∀ one ∈ after.steps, one ∈ state.steps ∨ action = .other one ∨
      (∃ bytes, one = .receive bytes) ∨ ∃ buffer, one = .drop buffer := by
  have acts {middle : UdpReceiver} {one : Receiving.Action} (ran : middle.act one = .ok after)
      (same : middle.steps = state.steps) :
      ∀ other ∈ after.steps, other ∈ state.steps ∨ other = one := by
    obtain ⟨_, -, rfl⟩ := act_spec ran
    intro other inside
    rw [same] at inside
    exact (List.mem_append.mp inside).imp_right List.mem_singleton.mp
  cases action with
  | arrive datagram =>
      cases ran
      unfold arrive
      split <;> exact fun _ => .inl
  | readEvent =>
      cases ran
      unfold readEventCb
      split <;> exact fun _ => .inl
  | readRound failed =>
      simp only [UdpReceiver.step, UdpReceiver.readRound] at ran
      split at ran
      · split at ran
        · split at ran
          · cases ran
            exact fun _ => .inl
          · split at ran
            · cases ran
              exact fun _ => .inl
            · exact fun one inside =>
                (acts ran rfl one inside).imp_right fun same => .inr (.inl ⟨_, same⟩)
        · cases ran
          exact fun _ => .inl
      · cases ran
        exact fun _ => .inl
  | readDone =>
      simp only [UdpReceiver.step, UdpReceiver.readDone] at ran
      split at ran
      · cases ran
        exact fun _ => .inl
      · split at ran
        · exact fun one inside =>
            (acts ran rfl one inside).imp_right fun same => .inr (.inr ⟨_, same⟩)
        · cases ran
          exact fun _ => .inl
  | other action =>
      simp only [UdpReceiver.step] at ran
      split at ran
      · exact fun one inside =>
          (acts ran rfl one inside).imp_right fun same => .inl (by rw [same])
      · cases ran
        exact fun _ => .inl

theorem run_steps {id : SubId} {actions : List UdpAction}
    (queued : .other (.setQueueBypass id true) ∉ actions)
    (ran : UdpReceiver.run actions state = .ok after)
    (before : ∀ one ∈ state.steps, one ≠ .setQueueBypass id true) :
    ∀ one ∈ after.steps, one ≠ .setQueueBypass id true := by
  induction actions generalizing state with
  | nil =>
      cases ran
      exact before
  | cons action rest ih =>
      obtain ⟨next, here, onward⟩ := bind_ok ran
      rw [List.mem_cons, not_or] at queued
      refine ih queued.2 onward fun one inside => ?_
      rcases step_steps here one inside with old | rfl | ⟨bytes, rfl⟩ | ⟨buffer, rfl⟩
      · exact before one old
      · exact fun same => queued.1 (by rw [same])
      · exact fun same => by cases same
      · exact fun same => by cases same

end Tidy

/-- Every datagram that arrives is taken once and in order, at most so many in one read event, and
goes to `sbfHandler_packet` unless it is empty. What a subscription gets of the messages in them, in
any order of the steps around the loop, is the front of what it is served, in order; the rest waits
on its queue. When nothing is under way every buffer is freed. -/
theorem udp_run_receives (id : SubId) (actions : List UdpAction)
    (queued : .other (.setQueueBypass id true) ∉ actions) {last : UdpReceiver}
    (ran : run actions new = .ok last) :
    last.taken ++ last.waiting = last.arrived ∧
      (∀ i, last.reading = some i → i ≤ readLimit) ∧
      Receiving.run last.steps (.new .udp) = .ok last.receiving ∧
      packets last.steps =
        (last.taken.map (·.take sizeLimit)).filter (fun datagram => datagram ≠ []) ∧
      Receiving.along Receiving.told last.steps (.new .udp) ++ last.receiving.toCome =
        (Receiving.along Receiving.dispatched last.steps (.new .udp)).flatMap
          (fun sent => sent.served.map (·, sent.payload)) ∧
      Receiving.messages id (Receiving.along Receiving.called last.steps (.new .udp)) <+:
        Receiving.messages id (Receiving.along Receiving.told last.steps (.new .udp)) ∧
      (∀ sub, last.receiving.subs.find id = some sub → sub.mDestroyed = false →
        sub.mMessageCb = true →
        Receiving.messages id (Receiving.along Receiving.called last.steps (.new .udp)) ++
          last.receiving.waiting id =
            Receiving.messages id (Receiving.along Receiving.told last.steps (.new .udp))) ∧
      (last.inHand = none → last.receiving.items = [] → last.receiving.running = [] →
        ∀ buffer, buffer < last.receiving.buffers.fresh →
          last.receiving.buffers.freed.count buffer = 1) := by
  have tidy := new_tidy.run ran
  have orderly := (Receiving.new_orderly id .udp).run
    (run_steps queued ran (List.forall_mem_nil _)) tidy.history (Receiving.new_sound .udp)
  simp only [List.nil_append] at orderly
  refine ⟨tidy.all, tidy.limit, tidy.history, tidy.packets, orderly.all, orderly.front,
    orderly.rest, fun free items running buffer old => ?_⟩
  have callers : last.receiving.callers = [] := by
    rw [tidy.callers, free]
    rfl
  rw [tidy.sound.buffers.counted.freed, if_pos]
  exact ⟨old, tidy.sound.none_referred callers items running buffer⟩

/-- Two datagrams are read; the user's queue has dispatched the first message. -/
def twoReads : List UdpAction :=
  [.other (.create Pub.tick.mTopic 0 false true), .other .event,
    .arrive (Receiving.tickMessage [1]), .arrive (Receiving.tickMessage [2]), .readEvent,
    .readRound false, .other .advance, .other .advance, .other .advance, .readDone,
    .readRound false, .other .advance, .other .advance, .other .advance, .readDone,
    .readRound false, .other (.dispatch 0)]

theorem udp_run_receives_twoReads : ∃ last, run twoReads new = .ok last ∧
    last.taken = [Receiving.tickMessage [1], Receiving.tickMessage [2]] ∧
    Receiving.messages 0 (Receiving.along Receiving.called last.steps (.new .udp)) <+: [[1], [2]] := by
  obtain ⟨last, ran, waiting, arrived, telling⟩ : ∃ last, run twoReads new = .ok last ∧
      last.waiting = [] ∧
      last.arrived = [Receiving.tickMessage [1], Receiving.tickMessage [2]] ∧
      Receiving.messages 0 (Receiving.along Receiving.told last.steps (.new .udp)) = [[1], [2]] :=
    ⟨_, rfl, rfl, rfl, rfl⟩
  obtain ⟨all, -, -, -, -, front, -⟩ := udp_run_receives 0 twoReads (by simp [twoReads]) ran
  rw [waiting, List.append_nil, arrived] at all
  rw [telling] at front
  exact ⟨last, ran, all, front⟩

section Gone

variable {state after : UdpReceiver} (tidy : state.Tidy) (gone : state.receiving.gone = true)
include tidy gone

theorem Tidy.empty_handed : state.inHand = none := by
  cases held : state.inHand with
  | none => rfl
  | some buffer =>
      obtain ⟨i, reads, -⟩ := tidy.hand buffer held
      cases (tidy.shut gone).symm.trans reads

/-- When the stream has gone only the steps besides are left. -/
theorem Tidy.step_gone (action : UdpAction) : UdpReceiver.step action state = .ok state ∨
    ∃ one, state.Besides one ∧ UdpReceiver.step action state = state.act one := by
  have shut := tidy.shut gone
  have empty := tidy.empty_handed gone
  cases action with
  | arrive datagram => exact .inl (by simp only [UdpReceiver.step, arrive, gone, if_true])
  | readEvent => exact .inl (by simp [UdpReceiver.step, readEventCb, gone])
  | readRound failed => exact .inl (by simp only [UdpReceiver.step, UdpReceiver.readRound, shut])
  | readDone => exact .inl (by simp only [UdpReceiver.step, UdpReceiver.readDone, empty])
  | other action =>
      by_cases besides : state.Besides action
      · exact .inr ⟨action, besides, if_pos besides⟩
      · exact .inl (if_neg besides)

/-- A step that succeeds leaves what is from the pool, one way or the other. -/
theorem Tidy.step_unread {action : UdpAction} (ran : UdpReceiver.step action state = .ok after) :
    after.receiving.gone = true ∧ (Receiving.Unread after.receiving.buffers ↔
      Receiving.Unread state.receiving.buffers) := by
  rcases tidy.step_gone gone action with same | ⟨one, -, same⟩
  · cases same.symm.trans ran
    exact ⟨gone, .rfl⟩
  · obtain ⟨receiving, stepped, rfl⟩ := act_spec (same.symm.trans ran)
    have moves := tidy.sound.moves stepped
    exact ⟨moves.gone.mpr (.inl gone),
      moves.unread (.inl (Receiving.hasPool_eq_false.mpr ⟨tidy.reader, gone⟩))⟩

theorem Tidy.run_unread {actions : List UdpAction} (ran : UdpReceiver.run actions state = .ok after) :
    after.receiving.gone = true ∧ (Receiving.Unread after.receiving.buffers ↔
      Receiving.Unread state.receiving.buffers) := by
  induction actions generalizing state with
  | nil =>
      cases ran
      exact ⟨gone, .rfl⟩
  | cons action rest ih =>
      obtain ⟨next, here, onward⟩ := bind_ok ran
      obtain ⟨gone', same⟩ := tidy.step_unread gone here
      obtain ⟨gone'', same'⟩ := ih (tidy.step here) gone' onward
      exact ⟨gone'', same'.trans same⟩

/-- With nothing of the pool in use nothing can go back to it. -/
theorem Tidy.run_free (unread : Receiving.Unread state.receiving.buffers)
    (actions : List UdpAction) : ∃ last, UdpReceiver.run actions state = .ok last := by
  induction actions generalizing state with
  | nil => exact ⟨state, rfl⟩
  | cons action rest ih =>
      obtain ⟨next, here⟩ : ∃ next, UdpReceiver.step action state = .ok next := by
        rcases tidy.step_gone gone action with same | ⟨one, besides, same⟩
        · exact ⟨state, same⟩
        · rw [same]
          rcases tidy.sound.step one with
            ⟨receiving, stepped, -⟩ | ⟨bytes, receives, -⟩ | ⟨stale | unpooled, -⟩
          · exact ⟨{ state with receiving := receiving, steps := state.steps ++ [one] }, by
              simp only [UdpReceiver.act, stepped, bind, Except.bind, pure, Except.pure]⟩
          · exact absurd receives ((besides_apart besides).1 bytes)
          · cases stale.mesh.symm.trans tidy.reader
          · exact absurd (fun _ => unread) unpooled
      obtain ⟨gone', same⟩ := tidy.step_unread gone here
      obtain ⟨last, onward⟩ := ih (tidy.step here) gone' (same.mpr unread)
      exact ⟨last, by simp only [UdpReceiver.run, here, bind, Except.bind, onward]⟩

/-- Every item can be brought to its end, unless that fails. -/
theorem Tidy.run_drained : ∃ actions, ∀ last, UdpReceiver.run actions state = .ok last →
    last.receiving.items = [] ∧ last.receiving.running = [] := by
  induction size : 2 * state.receiving.items.length + state.receiving.running.length
    using Nat.strongRecOn generalizing state with
  | _ left ih =>
      have through (action : UdpAction) (less : ∀ next, UdpReceiver.step action state = .ok next →
          2 * next.receiving.items.length + next.receiving.running.length < left) :
          ∃ actions, ∀ last, UdpReceiver.run actions state = .ok last →
            last.receiving.items = [] ∧ last.receiving.running = [] := by
        cases here : UdpReceiver.step action state with
        | error failure =>
            refine ⟨[action], fun last ran => ?_⟩
            simp only [UdpReceiver.run, here, bind, Except.bind] at ran
            cases ran
        | ok next =>
            obtain ⟨actions, ends⟩ := ih _ (less next here) (tidy.step here)
              (tidy.step_unread gone here).1 rfl
            refine ⟨action :: actions, fun last ran => ends last ?_⟩
            simpa only [UdpReceiver.run, here, bind, Except.bind] using ran
      cases running : state.receiving.running with
      | cons item others =>
          refine through (.other (.finish item)) fun next here => ?_
          obtain ⟨receiving, stepped, rfl⟩ := act_spec here
          have inside : item ∈ state.receiving.running := by simp [running]
          obtain ⟨items, less⟩ := Receiving.finish_moves inside stepped
          have shorter := List.length_erase_of_mem inside
          simp only [items, less]
          have some_ := List.length_pos_of_mem inside
          omega
      | nil =>
          cases items : state.receiving.items with
          | nil => exact ⟨[], fun last ran => by cases ran; exact ⟨items, running⟩⟩
          | cons item others =>
              refine through (.other (.dispatch item.mQueue)) fun next here => ?_
              obtain ⟨receiving, stepped, rfl⟩ := act_spec here
              have waits : item ∈ state.receiving.items := by simp [items]
              obtain ⟨first, inside, less, more⟩ := Receiving.dispatch_moves waits stepped
              have shorter := List.length_erase_of_mem inside
              have some_ := List.length_pos_of_mem inside
              simp only [less, more, List.length_append, List.length_singleton]
              omega

end Gone

/-- The pool of the buffers goes with the stream. What happens after that is safe exactly when no
buffer that was read into is held any more, by an item on a queue or by a callback. -/
theorem udp_run_pool (front : List UdpAction) {before : UdpReceiver}
    (ran : run front new = .ok before) (gone : before.receiving.gone = true) :
    (∀ back, ∃ last, run back before = .ok last) ↔
      ∀ buffer data, before.receiving.buffers.find buffer = some data →
        data.mDestroyCb ≠ .null := by
  have tidy := new_tidy.run ran
  constructor
  · intro safe
    obtain ⟨actions, ends⟩ := tidy.run_drained gone
    obtain ⟨last, onward⟩ := safe actions
    obtain ⟨items, running⟩ := ends last onward
    obtain ⟨gone', same⟩ := tidy.run_unread gone onward
    have tidy' := tidy.run onward
    refine same.mp fun buffer data found => ?_
    rw [tidy'.sound.none_left (by rw [tidy'.callers, tidy'.empty_handed gone']; rfl)
      items running buffer] at found
    cases found
  · exact fun unread back => tidy.run_free gone unread back

/-- The only subscription of a stream is destroyed, and so the stream goes, with a message of the
subscription still on its queue. -/
def goneQueued : List UdpAction :=
  [.other .complete, .other (.create Pub.tick.mTopic 0 false true), .other .event,
    .arrive (Receiving.tickMessage [1]), .readEvent, .readRound false, .other .advance,
    .other .advance, .other .advance, .readDone, .readRound false, .other (.destroySub 0),
    .other .event]

theorem udp_run_pool_goneQueued : ∃ before, run goneQueued new = .ok before ∧
    ¬ ∀ back, ∃ last, run back before = .ok last := by
  obtain ⟨before, data, ran, gone, found, pooled⟩ : ∃ before data,
      run goneQueued new = .ok before ∧ before.receiving.gone = true ∧
      before.receiving.buffers.find 0 = some data ∧ data.mDestroyCb = .null :=
    ⟨_, _, rfl, rfl, rfl, rfl⟩
  exact ⟨before, ran, fun safe => (udp_run_pool goneQueued ran gone).mp safe 0 data found pooled⟩

end UdpReceiver

end Sbf
