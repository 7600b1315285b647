import Sbf.MeshConnections
import Sbf.PubRoundTrip
import Sbf.TcpMeshRead

set_option autoImplicit false

/-! From `sbfPub_send` over a connection of the mesh to the subscriptions of its peer. -/

namespace Sbf

open Octets Handler

/-- The items of which all parts are among those that so many, behind so many, are. -/
def wholeIn {α : Type} : List (Nat × α) → Nat → Nat → List α
  | [], _, _ => []
  | (parts, item) :: rest, skip, count =>
      if skip = 0 then
        if parts ≤ count then item :: wholeIn rest 0 (count - parts) else []
      else wholeIn rest (skip - parts) (count - (parts - skip))

theorem Continues.lt_fragNum {name : Bytes} {count : Nat} {blocks : List Block} {left : Bytes}
    (fragments : Continues name count blocks left) : ∀ block ∈ blocks, count < block.fragNum := by
  induction fragments with
  | last count only named number marked =>
      intro block member
      rw [List.mem_singleton.mp member, Block.fragNum]
      omega
  | more count first rest left named number unmarked later ih =>
      refine List.forall_mem_cons.mpr ⟨?_, fun block member => Nat.lt_of_succ_lt (ih block member)⟩
      rw [Block.fragNum]
      omega

namespace Receiver

/-- Fragments behind a first one that did not come are dropped. -/
theorem takeAll_late {name : Bytes} {blocks : List Block} (named : ∀ block ∈ blocks, block.name = name)
    (late : ∀ block ∈ blocks, 1 < block.fragNum) {receiver : Receiver}
    (idle : receiver.IdleAt name) : ∃ after, takeAll blocks receiver = (after, []) ∧
      after.IdleAt name ∧ ∀ other, other ≠ name → after other = receiver other := by
  induction blocks generalizing receiver with
  | nil => exact ⟨receiver, rfl, idle, fun _ _ => rfl⟩
  | cons block rest ih =>
      obtain ⟨here, behind⟩ := List.forall_mem_cons.mp named
      obtain ⟨number, later⟩ := List.forall_mem_cons.mp late
      subst here
      cases lookup : receiver block.name with
      | none =>
          obtain ⟨after, ran, empty, others⟩ := ih behind later idle
          exact ⟨after, by rw [takeAll_cons, take_deaf block receiver lookup, ran]; rfl, empty, others⟩
      | some frag =>
          have start := idle frag lookup
          have fragment : block.hdr.mFragNum ≠ 0 := by
            intro zero
            simp [Block.fragNum, zero] at number
          have dropped : Tport.assemble frag block.hdr block.payload = Tport.assembleInvalid frag := by
            rw [Tport.assemble, if_pos]
            rw [Block.fragNum] at number
            rw [start.1]
            omega
          obtain ⟨after, ran, empty, others⟩ := ih behind later
            (IdleAt.set receiver block.name (Tport.assembleInvalid frag).2 ⟨rfl, rfl⟩)
          refine ⟨after, ?_, empty, fun other apart => ?_⟩
          · rw [takeAll_cons, take_fragment block receiver frag lookup fragment, dropped, ran]
            rfl
          · rw [others other apart, set_other _ _ _ _ apart]

/-- Nothing comes out before the last fragment. -/
theorem takeAll_unended {name : Bytes} {count : Nat} {blocks : List Block} {left : Bytes}
    (fragments : Continues name count blocks left) (sound : ∀ block ∈ blocks, block.Sound)
    {receiver : Receiver} {frag : Reassembly} {got : Bytes} (listening : receiver name = some frag)
    (holds : frag.Holds count got) {some_ : Nat} (fewer : some_ < blocks.length) :
    (takeAll (blocks.take some_) receiver).2 = [] := by
  induction fragments generalizing receiver frag got some_ with
  | last count block named number marked =>
      obtain rfl : some_ = 0 := by simpa using fewer
      rfl
  | more count block rest left named number unmarked later ih =>
      cases some_ with
      | zero => rfl
      | succ some_ =>
          have step := Tport.assemble_next frag count got block.hdr block.payload holds
            (sound block (by simp)).sized number
          simp only [unmarked, Bool.false_eq_true, ↓reduceIte] at step
          obtain ⟨middle, ran, started⟩ := step
          have fragment : block.hdr.mFragNum ≠ 0 := by
            intro zero
            simp [zero] at number
          subst named
          have onward := ih (fun other member => sound other (by simp [member]))
            (set_self receiver block.name middle) (Or.inr started) (by simpa using fewer)
          rw [List.take_succ_cons, takeAll_cons, take_fragment block receiver frag listening fragment,
            ran, onward]
          rfl

/-- What is left of a message whose first blocks did not come is dropped. -/
theorem takeAll_behind {blocks : List Block} {message : Message}
    (carries : Carries blocks message) {skip : Nat} (some_ : 0 < skip) (count : Nat)
    {receiver : Receiver} (idle : receiver.IdleAt message.topic) :
    ∃ after, takeAll ((blocks.drop skip).take count) receiver = (after, []) ∧
      after.IdleAt message.topic ∧
      ∀ other, other ≠ message.topic → after other = receiver other := by
  have inside : ∀ block ∈ (blocks.drop skip).take count, block ∈ blocks.drop skip := fun block =>
    (List.take_sublist _ _).mem
  refine takeAll_late (fun block there => carries.name_eq block
    (List.mem_of_mem_drop (inside block there))) (fun block there => ?_) idle
  replace there := inside block there
  cases carries with
  | whole only number =>
      rw [List.drop_eq_nil_of_le (by simpa using Nat.succ_le_of_lt some_)] at there
      cases there
  | pieces name blocks payload fragments =>
      obtain ⟨skip, rfl⟩ : ∃ n, skip = n + 1 := ⟨skip - 1, by omega⟩
      cases fragments with
      | last count only named number marked => simp at there
      | more count first rest left named number unmarked later =>
          rw [List.drop_succ_cons] at there
          exact later.lt_fragNum block (List.mem_of_mem_drop there)

/-- Nothing comes out of a message whose last block did not come. -/
theorem takeAll_front {blocks : List Block} {message : Message}
    (carries : Carries blocks message) (sound : ∀ block ∈ blocks, block.Sound) {count : Nat}
    (fewer : count < blocks.length) {receiver : Receiver} (idle : receiver.IdleAt message.topic) :
    (takeAll (blocks.take count) receiver).2 = [] := by
  cases carries with
  | whole only number =>
      obtain rfl : count = 0 := by simpa using fewer
      rfl
  | pieces name blocks payload fragments =>
      cases lookup : receiver name with
      | none =>
          rw [takeAll_deaf name _ receiver (fun block there =>
            fragments.named block (List.mem_of_mem_take there)) lookup]
      | some frag => exact takeAll_unended fragments sound lookup (idle frag lookup).holds fewer

theorem Idle.at_others {receiver after : Receiver} (idle : receiver.Idle) {name : Bytes}
    (here : after.IdleAt name) (others : ∀ other, other ≠ name → after other = receiver other) :
    after.Idle := by
  intro other
  by_cases same : other = name
  · exact same ▸ here
  · intro frag lookup
    exact idle other frag (by rw [← others other same, lookup])

/-- Out of a part of the blocks come the messages that lie in it as a whole. -/
theorem takeAll_wholeIn {parts : List (List Block)} {messages : List Message}
    (carried : List.Forall₂ Carries parts messages)
    (sound : ∀ blocks ∈ parts, ∀ block ∈ blocks, block.Sound) (skip count : Nat)
    {receiver : Receiver} (idle : receiver.Idle) :
    (takeAll ((parts.flatten.drop skip).take count) receiver).2 =
      receiver.wanted (wholeIn ((parts.map List.length).zip messages) skip count) := by
  induction carried generalizing receiver skip count with
  | nil => simp [wholeIn, wanted]
  | @cons part message parts messages first rest ih =>
      obtain ⟨own, later⟩ := List.forall_mem_cons.mp sound
      simp only [List.flatten_cons, List.map_cons, List.zip_cons_cons, wholeIn]
      by_cases start : skip = 0
      · rw [if_pos start, start, List.drop_zero]
        split
        case isTrue all =>
          obtain ⟨middle, ran, empty, others⟩ := takeAll_carries first own receiver
            (idle message.topic)
          have same : ∀ name, (middle name).isSome = (receiver name).isSome := by
            intro name
            rw [← takeAll_isSome part receiver name, ran]
          have onward := ih later 0 (count - part.length) (idle.at_others empty others)
          rw [List.drop_zero] at onward
          rw [List.take_append, List.take_of_length_le all, takeAll_append, ran, onward,
            wanted_congr _ same]
          simp only [wanted, ← List.filter_append, List.singleton_append]
        case isFalse missing =>
          rw [List.take_append_of_le_length (by omega),
            takeAll_front first own (by omega) (idle message.topic)]
          rfl
      · rw [if_neg start, List.drop_append, List.take_append, takeAll_append]
        obtain ⟨after, ran, empty, others⟩ := takeAll_behind first (Nat.pos_of_ne_zero start) count
          (idle message.topic)
        have same : ∀ name, (after name).isSome = (receiver name).isSome := by
          intro name
          rw [← takeAll_isSome ((part.drop skip).take count) receiver name, ran]
        rw [ran, List.length_drop, ih later _ _ (idle.at_others empty others), wanted_congr _ same]
        rfl

end Receiver

namespace TcpMesh

/-- The packets that are complete in so many bytes. -/
def complete : List Bytes → Nat → Nat
  | [], _ => 0
  | packet :: rest, arrived =>
      if packet.length ≤ arrived then complete rest (arrived - packet.length) + 1 else 0

theorem complete_blocks (blocks : List Block) (arrived : Nat) :
    complete (blocks.map Block.bytes) arrived = completed blocks arrived := by
  induction blocks generalizing arrived with
  | nil => rfl
  | cons block rest ih => simp only [List.map_cons, complete, completed, ih]

/-- Among the blocks that are complete later, the same ones are complete before. -/
theorem completed_take {blocks : List Block} {before after : Nat} (order : before ≤ after) :
    completed (blocks.take (completed blocks after)) before = completed blocks before := by
  refine Nat.eq_iff_le_and_ge.mpr ⟨?_, ?_⟩
  · rw [le_completed_iff]
    obtain ⟨inside, room⟩ := (le_completed_iff _ _ _).mp
      (Nat.le_refl (completed (blocks.take (completed blocks after)) before))
    rw [List.length_take] at inside
    rw [List.take_take, Nat.min_eq_left (by omega)] at room
    exact ⟨by omega, room⟩
  · rw [le_completed_iff]
    have mono := completed_mono blocks before after order
    obtain ⟨inside, room⟩ := (le_completed_iff blocks _ _).mp (Nat.le_refl (completed blocks before))
    rw [List.length_take, List.take_take, Nat.min_eq_left mono]
    exact ⟨by omega, room⟩

/-- What arrives of a stream of blocks, cut off anywhere. -/
theorem written_prefix {blocks : List Block} (sound : ∀ block ∈ blocks, block.Sound)
    (frames : ∀ block ∈ blocks, block.bytes.length ≤ poolSize) {arrived : Bytes}
    (front : arrived <+: packetBytes blocks) : ∃ tail,
    arrived = packetBytes (blocks.take (completed blocks arrived.length)) ++ tail ∧
      Written (blocks.take (completed blocks arrived.length)) tail := by
  obtain ⟨inside, room⟩ := (le_completed_iff blocks arrived.length _).mp (Nat.le_refl _)
  have whole : packetBytes (blocks.take (completed blocks arrived.length)) <+: arrived := by
    refine List.prefix_of_prefix_length_le ?_ front room
    conv => rhs; rw [← List.take_append_drop (completed blocks arrived.length) blocks]
    rw [packetBytes, packetBytes, List.map_append, List.flatten_append]
    exact List.prefix_append _ _
  obtain ⟨tail, split⟩ := whole
  refine ⟨tail, split.symm, fun block there => sound block (List.mem_of_mem_take there),
    fun block there => frames block (List.mem_of_mem_take there), ?_⟩
  by_cases more : completed blocks arrived.length < blocks.length
  · have next := List.drop_eq_getElem_cons more
    obtain ⟨rest, all⟩ := front
    have cut : packetBytes blocks = packetBytes (blocks.take (completed blocks arrived.length)) ++
        packetBytes (blocks.drop (completed blocks arrived.length)) := by
      conv => lhs; rw [← List.take_append_drop (completed blocks arrived.length) blocks]
      rw [packetBytes, List.map_append, List.flatten_append]
      rfl
    rw [← split, cut, List.append_assoc, next, packetBytes_cons] at all
    have missing := mt (le_completed_iff blocks arrived.length
      (completed blocks arrived.length + 1)).mpr (Nat.not_succ_le_self _)
    rw [List.take_succ_eq_append_getElem more, packetBytes_concat_length] at missing
    have short : tail.length < blocks[completed blocks arrived.length].bytes.length := by
      have length := congrArg List.length split
      rw [List.length_append] at length
      omega
    have start := List.append_cancel_left all
    refine ⟨blocks[completed blocks arrived.length],
      blocks[completed blocks arrived.length].bytes.drop tail.length,
      sound _ (List.getElem_mem more), ?_, ?_⟩
    · have first := congrArg (List.take tail.length) start
      rw [List.take_left, List.take_append_of_le_length short.le] at first
      rw [first, List.length_take, Nat.min_eq_left short.le]
      exact List.take_append_drop _ _
    · exact List.ne_nil_of_length_pos (by rw [List.length_drop]; omega)
  · rw [List.take_of_length_le (by omega)] at split
    obtain ⟨rest, all⟩ := front
    have nothing : tail = [] := by
      rw [← split, List.append_assoc] at all
      exact (List.append_eq_nil_iff.mp (List.append_cancel_left
        (all.trans (List.append_nil _).symm))).1
    exact ⟨bare, bare.bytes, ⟨rfl, rfl, rfl⟩, by rw [nothing]; rfl, by decide⟩

/-- However a part of the stream arrives, one block is taken for each chunk while there are any. -/
theorem readAll_prefix {blocks : List Block} (sound : ∀ block ∈ blocks, block.Sound)
    (frames : ∀ block ∈ blocks, block.bytes.length ≤ poolSize) {chunks : List Bytes}
    (front : chunks.flatten <+: packetBytes blocks) : ∃ taken left,
    readAll 0 chunks [] = .ok (left, (blocks.take taken).map Block.bytes) ∧
      ∀ goal, goal ≤ taken ↔ ∀ i ≤ chunks.length,
        goal ≤ completed blocks (chunks.take i).flatten.length + (chunks.length - i) := by
  obtain ⟨tail, split, written⟩ := written_prefix sound frames front
  have run := readAll_served _ tail written chunks 0 0 0 (Nat.zero_le _) []
    (by rw [List.nil_append, List.drop_zero, ← split]) rfl
  have bound := OnePerTick.served_le (blocks.take (completed blocks chunks.flatten.length)).length
    0 _ (Nat.zero_le _) (totals_le _ 0 chunks)
  rw [List.length_take] at bound
  rw [List.take_zero, totals, OnePerTick.served, List.drop_zero, List.take_take,
    Nat.min_eq_left (by omega)] at run
  refine ⟨_, _, run, fun goal => ?_⟩
  rw [le_served_totals_iff]
  refine forall₂_congr fun i inside => ?_
  have shorter : (chunks.take i).flatten.length ≤ chunks.flatten.length := by
    conv => rhs; rw [← List.take_append_drop i chunks, List.flatten_append, List.length_append]
    exact Nat.le_add_right _ _
  rw [completed_take shorter]

end TcpMesh

namespace MeshHandler

/-- What `sbfTcpMeshHandlerSendBuffer` is called with. -/
def Action.data : Action → Option Bytes
  | .sendBuffer data => some data
  | _ => none

theorem timerCb_sent (tmh : MeshHandler) (c : Nat) (opens connects : Bool) :
    (tmh.timerCb c opens connects).sent = tmh.sent := by
  simp only [timerCb, closeSocket, setSocket, modify]
  repeat' split
  all_goals rfl

theorem eventCb_sent (tmh : MeshHandler) (c : Nat) (connected : Bool) :
    (tmh.eventCb c connected).sent = tmh.sent := by
  unfold eventCb
  split
  · rfl
  · simp [apply_ite MeshHandler.sent, freeConnection, closeSocket, modify]

theorem acceptCb_sent (tmh : MeshHandler) : tmh.acceptCb.sent = tmh.sent := by
  simp only [acceptCb, newConnection, setSocket, modify]
  split <;> rfl

theorem step_sent {tmh after : MeshHandler} {action : Action} (ran : tmh.step action = .ok after) :
    after.sent = tmh.sent ++ action.data.toList := by
  cases action with
  | timerCb c opens connects =>
      cases ran
      simp [timerCb_sent, Action.data]
  | eventCb c connected =>
      cases ran
      simp [eventCb_sent, Action.data]
  | acceptCb =>
      cases ran
      simp [acceptCb_sent, Action.data]
  | sendBuffer data =>
      simp only [step, sendBuffer, bind, Except.bind] at ran
      split at ran
      · cases ran
      · cases ran
        rfl

theorem run_sent {tmh after : MeshHandler} {actions : List Action}
    (ran : actions.foldlM step tmh = .ok after) :
    after.sent = tmh.sent ++ actions.filterMap Action.data := by
  induction actions generalizing tmh with
  | nil =>
      cases ran
      simp
  | cons action rest ih =>
      simp only [List.foldlM_cons, bind, Except.bind] at ran
      split at ran
      · cases ran
      · rename_i next here
        rw [ih ran, step_sent here, List.append_assoc, List.filterMap_cons]
        cases action.data <;> rfl

theorem create_sent (hosts : Nat) (mListener : Bool) : (create hosts mListener).sent = [] := by
  rw [create]
  generalize List.range hosts = list
  suffices each : ∀ tmh : MeshHandler, (list.foldl (fun tmh _ =>
      (tmh.newConnection false).modify tmh.made (fun connection =>
        { connection with mTimer := true })) tmh).sent = tmh.sent from each _
  induction list with
  | nil => exact fun _ => rfl
  | cons _ rest ih => exact fun tmh => ih _

end MeshHandler

/-- What a publisher sends, as its subscriptions know it. -/
def Pub.message (send : Pub × Bytes) : Message := ⟨send.1.mTopic.mTopic.chars, send.2⟩

/-- The packets of some sends as blocks. -/
theorem Pub.sends_carry {mPacketSize : UInt16} {sends : List (Pub × Bytes)}
    (can : ∀ send ∈ sends, send.1.CanSend mPacketSize send.2) {packets : List (List Bytes)}
    (sent : sends.mapM (fun send => send.1.send mPacketSize send.2) = .ok packets) :
    ∃ parts : List (List Block), packets = parts.map (List.map Block.bytes) ∧
      (∀ blocks ∈ parts, ∀ block ∈ blocks, block.Alone mPacketSize) ∧
      List.Forall₂ Carries parts (sends.map message) := by
  induction sends generalizing packets with
  | nil =>
      cases sent
      exact ⟨[], rfl, List.forall_mem_nil _, .nil⟩
  | cons send rest ih =>
      obtain ⟨here, later⟩ := List.forall_mem_cons.mp can
      obtain ⟨blocks, ran, -, alone, carries⟩ := send.1.send_carries mPacketSize send.2 here
      simp only [List.mapM_cons, ran, bind, Except.bind] at sent
      split at sent
      · cases sent
      · rename_i others onward
        cases sent
        obtain ⟨parts, rfl, each, carried⟩ := ih later onward
        exact ⟨blocks :: parts, rfl, List.forall_mem_cons.mpr ⟨alone, each⟩, .cons carries carried⟩

namespace MeshHandler

open TcpMesh Topics

/-- The packet size in `sbf_tcpmesh_handler`. -/
def packetSize : UInt16 := 65535

/-- From the publishers of one transport to the subscriptions of another: in every order of what
happens to the connections while messages are sent, and however a part of what one connection writes
arrives at the other end, the packets since it was connected are taken in order, at most one for each
arrival; and every subscription gets, once and in order, the messages that lie in those as a whole,
and nothing else. -/
theorem mesh_run_delivers (hosts : Nat) (mListener : Bool) (actions : List Action)
    (sends : List (Pub × Bytes)) (can : ∀ send ∈ sends, send.1.CanSend packetSize send.2)
    (packets : List (List Bytes))
    (sent : sends.mapM (fun send => send.1.send packetSize send.2) = .ok packets)
    (order : actions.filterMap Action.data = packets.flatten) : ∃ tmh,
    actions.foldlM step (create hosts mListener) = .ok tmh ∧
      ∀ c ∈ tmh.mConnections, (tmh.connection c).mConnected = true →
        ∃ event, (tmh.connection c).mEvent = some event ∧
          ∀ chunks : List Bytes, chunks.flatten <+: event.output.flatten →
            ∀ topics : List TportTopic, Topics.Sound topics → (∀ ttopic ∈ topics, ttopic.frag.Idle) →
              ∃ taken left out topics' dispatched,
                readAll 0 chunks [] = .ok (left, out) ∧
                out = (packets.flatten.drop (tmh.connection c).since).take taken ∧
                (∀ goal, goal ≤ taken ↔ ∀ i ≤ chunks.length, goal ≤
                  complete (packets.flatten.drop (tmh.connection c).since)
                    (chunks.take i).flatten.length + (chunks.length - i)) ∧
                Handler.packets out topics = .ok (topics', dispatched) ∧
                ∀ (subs : SubId → Sub) (sub : SubId), deliveries subs sub dispatched =
                  expected topics subs sub (wholeIn
                    ((packets.map List.length).zip (sends.map Pub.message))
                    (tmh.connection c).since taken) := by
  obtain ⟨tmh, ran, sound⟩ := (create_sound hosts mListener).run actions
  have all := run_sent ran
  rw [create_sent, List.nil_append, order] at all
  obtain ⟨parts, rfl, alone, carried⟩ := Pub.sends_carry can sent
  refine ⟨tmh, ran, fun c there connected => ?_⟩
  obtain ⟨-, event, found, -, -, output, -⟩ := (sound.each c there).connected connected
  refine ⟨event, found, fun chunks front topics good idle => ?_⟩
  generalize (tmh.connection c).since = since at *
  have flat : (parts.map (List.map Block.bytes)).flatten = parts.flatten.map Block.bytes :=
    List.map_flatten.symm
  rw [flat] at all ⊢
  rw [← List.map_drop]
  have each : ∀ block ∈ parts.flatten.drop since, block.Alone packetSize := by
    intro block member
    obtain ⟨blocks, part, inside⟩ := List.mem_flatten.mp (List.mem_of_mem_drop member)
    exact alone blocks part block inside
  rw [output, all, ← List.map_drop] at front
  obtain ⟨taken, left, read, last⟩ := readAll_prefix (fun block member => (each block member).sound)
    (fun block member => Nat.le_trans (each block member).fits (by decide)) front
  obtain ⟨topics', dispatched, delivered, -, shows⟩ := packets_alone packetSize
    ((parts.flatten.drop since).take taken)
    (fun block member => each block (List.mem_of_mem_take member)) topics topics (receiver topics)
    (Implements.refl good)
  have quiet : (receiver topics).Idle := by
    intro name frag view
    obtain ⟨ttopic, node, same, _⟩ := Implements.lookup (Topics.Implements.refl good) view
    rw [← same]
    exact idle ttopic (find_mem node).1
  rw [Receiver.takeAll_wholeIn carried (fun blocks part block inside =>
    (alone blocks part block inside).sound) since taken quiet] at shows
  refine ⟨taken, left, _, topics', dispatched, read, List.map_take, fun goal => ?_, delivered,
    fun subs sub => ?_⟩
  · simp only [last, complete_blocks]
  · rw [deliveries_shows good subs sub shows, expected_wanted, List.map_map]
    congr 4
    exact funext fun blocks => (List.length_map _).symm

/-- A packet of the ticker's with a whole message. -/
def tickWhole (payload : Bytes) : Bytes :=
  (Pub.block Pub.tick 0 TportHeader.lastInPacket payload).bytes

/-- A message that is sent before the connection is there, and one behind it. -/
def twoTicks : List Action :=
  [.timerCb 0 true true, .sendBuffer (tickWhole [1]), .eventCb 0 true, .sendBuffer (tickWhole [2])]

/-- The second one arrives in two chunks. -/
theorem mesh_run_delivers_twoTicks : ∃ tmh, twoTicks.foldlM step (create 1 false) = .ok tmh ∧
    ∃ left out topics' dispatched,
      readAll 0 [(tickWhole [2]).take 5, (tickWhole [2]).drop 5] [] = .ok (left, out) ∧
      Handler.packets out [Pub.tickNode] = .ok (topics', dispatched) ∧
        deliveries (fun _ => ⟨false, true, true⟩) 2 dispatched = [.called [2]] := by
  obtain ⟨tmh, ran, each⟩ := mesh_run_delivers 1 false twoTicks
    [(Pub.ticker, [1]), (Pub.ticker, [2])]
    (by
      refine List.forall_mem_cons.mpr ⟨?_, List.forall_mem_singleton.mpr ?_⟩
      all_goals exact ⟨⟨rfl, rfl, by decide⟩, by decide, by decide, by decide⟩)
    [[tickWhole [1]], [tickWhole [2]]] rfl rfl
  obtain ⟨_, same, listed, up, holds, since⟩ : ∃ tmh,
      twoTicks.foldlM step (create 1 false) = .ok tmh ∧ 0 ∈ tmh.mConnections ∧
        (tmh.connection 0).mConnected = true ∧
        (tmh.connection 0).mEvent = some ⟨false, true, [tickWhole [2]]⟩ ∧
        (tmh.connection 0).since = 1 := ⟨_, rfl, by decide, rfl, rfl, rfl⟩
  rw [ran] at same
  cases same
  obtain ⟨event, found, arrives⟩ := each 0 listed up
  rw [holds] at found
  cases found
  obtain ⟨taken, left, out, topics', dispatched, read, -, last, delivered, gets⟩ :=
    arrives [(tickWhole [2]).take 5, (tickWhole [2]).drop 5] (by simp) [Pub.tickNode]
      Pub.tickNode_awaits.sound (List.forall_mem_singleton.mpr Reassembly.zero_idle)
  rw [since] at last gets
  have one : 1 ≤ taken := (last 1).mpr (by decide)
  have most : ¬ 2 ≤ taken := fun more => absurd ((last 2).mp more 2 (Nat.le_refl _)) (by decide)
  obtain rfl : taken = 1 := by omega
  refine ⟨tmh, ran, left, out, topics', dispatched, read, delivered, ?_⟩
  rw [gets]
  decide

end MeshHandler

end Sbf
