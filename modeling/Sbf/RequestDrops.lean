import Sbf.PacketLimits
import Sbf.RequestReply
import Sbf.TotalSteps

set_option autoImplicit false

/-! What a request publisher and a request subscription hand to their streams, over any
order of their ready events. -/

namespace Sbf

open Octets

/-- The handlers, by the `mPacketSize` of their tables. -/
inductive HandlerType where
  | udp
  | tcpmesh
deriving DecidableEq, Repr

def HandlerType.mPacketSize : HandlerType → UInt16
  | .udp => 65507
  | .tcpmesh => 65535

namespace Pub

/-- `sbfPub_create` -/
def create (self : PubId) (stream : StreamId) (topic : Topic) : Pub :=
  ⟨self, stream, topic, false, false, makeHeader topic, headerSize topic, rfl, rfl⟩

/-- The fields of `struct sbfPubImpl` that `sbfPub_ready` sets. -/
def ready (pub : Pub) : Pub := { pub with mReady := true }

/-- `sbfPub_getBuffer`, the bytes put into the buffer, and `sbfPub_sendBuffer`. -/
def fillAndSend (mPacketSize : UInt16) (pub : Pub) (message : Bytes) : Except Fault (List Bytes) :=
  pub.sendBuffer mPacketSize ((pub.getBuffer mPacketSize message.length).write message)

/-- The packets that went to the stream have the message behind their headers. -/
def Handed (pub : Pub) (message : Bytes) (result : Except Fault (List Bytes)) : Prop :=
  ∃ packets, result = .ok packets ∧ packets.flatMap (·.drop pub.mHeaderSize) = message

section Handed

variable (handler : HandlerType) (pub : Pub) (message : Bytes)

theorem headerSize_lt : pub.mHeaderSize < handler.mPacketSize.toNat := by
  have header := headerSize_le pub.mTopic
  rw [pub.made.2]
  cases handler <;> exact Nat.lt_of_le_of_lt header (by decide)

/-- Without a guard in its way a message goes out in one packet or in fragments. -/
theorem unguarded_handed (free : pub.Unguarded message) :
    pub.Handed message (pub.fillAndSend handler.mPacketSize message) := by
  have larger := headerSize_lt handler pub
  rw [fillAndSend, sendBuffer, sendBufferBy_unguarded handler.mPacketSize pub message free _ _
    (pub.getBuffer_usable handler.mPacketSize message.length message) rfl]
  by_cases long : message.length + pub.mHeaderSize > handler.mPacketSize.toNat
  · rw [if_pos long, Tport.fragment, if_neg (Nat.not_lt.mpr (Nat.le_of_lt larger)), pub.made.1,
      pub.made.2]
    rw [pub.made.2] at larger
    obtain ⟨packets, ran, cuts⟩ := fragmentLoop_cuts larger message (message.length + 1) 0 0
      (by omega)
    refine ⟨packets, ran, ?_⟩
    rw [pub.made.2, cuts.whole, List.drop_zero]
  · have short : ¬ message.length > handler.mPacketSize.toNat := by omega
    have own : ((pub.getBuffer handler.mPacketSize message.length).write message).mOwner =
        some pub.self := by
      simp only [Buffer.write, getBuffer, free.alive, free.ready, Bool.not_true, Bool.or_self,
        Bool.false_eq_true, ↓reduceIte, if_neg short]
    rw [if_neg long, own]
    refine ⟨_, by simp only [ne_eq, not_true_eq_false, ↓reduceIte]; rfl, ?_⟩
    rw [List.flatMap_singleton, pub.made.2, block_drop]

theorem guarded_dropped
    (guarded : message.length > messageSizeLimit ∨ (pub.mDestroyed || !pub.mReady) = true) :
    pub.fillAndSend handler.mPacketSize message = .ok [] := by
  have unshared := (pub.getBuffer_usable handler.mPacketSize message.length message).unshared
  unfold fillAndSend sendBuffer sendBufferBy
  rw [if_neg (not_not.mpr unshared)]
  split
  · rfl
  · rename_i within
    rw [if_pos (guarded.resolve_left within)]

/-- A message is handed to the stream exactly when no guard of `sbfPub_sendBuffer` holds. -/
theorem handed_iff (something : message ≠ []) :
    pub.Handed message (pub.fillAndSend handler.mPacketSize message) ↔ pub.Unguarded message := by
  refine ⟨?_, unguarded_handed handler pub message⟩
  rintro ⟨packets, ran, whole⟩
  by_contra guarded
  have dropped := guarded_dropped handler pub message (by
    by_contra free
    simp only [not_or, Bool.or_eq_true, Bool.not_eq_true', Bool.not_eq_true,
      Bool.not_eq_false] at free
    exact guarded ⟨free.2.2, free.2.1, Nat.not_lt.mp free.1⟩)
  cases dropped.symm.trans ran
  exact something whole.symm

end Handed

end Pub

/-- One of the two ends of a topic. -/
inductive RequestSide where
  | requester
  | replier
deriving DecidableEq, Repr

/-- The publisher of an end, and the ready callbacks that wait in its queue. -/
structure Starting where
  mPub : Pub
  pubReady : Bool
  subReady : Bool

namespace Starting

/-- `sbfPub_ready` -/
def pub_ready (starting : Starting) : Starting :=
  { starting with mPub := starting.mPub.ready, pubReady := true }

/-- `sbfSub_ready` -/
def sub_ready (starting : Starting) : Starting := { starting with subReady := true }

/-- `sbfPubReadyQueueCb` -/
def pubReadyQueueCb (starting : Starting) : Starting := { starting with pubReady := false }

/-- `sbfSubReadyQueueCb` -/
def subReadyQueueCb (starting : Starting) : Starting := { starting with subReady := false }

end Starting

/-- A request publisher and a request subscription with their publishers; `running` is the
received request whose callback has not returned. -/
structure RequestEnds where
  requestPub : RequestPub
  requestSub : RequestSub
  starting : RequestSide → Starting
  made : Nat
  running : Option Request

namespace RequestEnds

def create (requests replies : Topic) (fixed : UInt64 × UInt64 × UInt64) (requestCb : Option Nat) :
    RequestEnds where
  requestPub := .create fixed
  requestSub := .create requestCb 0
  starting
    | .requester => ⟨.create 0 0 requests, false, false⟩
    | .replier => ⟨.create 1 0 replies, false, false⟩
  made := 0
  running := none

/-- The publisher of a side. -/
def mPub (ends : RequestEnds) (side : RequestSide) : Pub := (ends.starting side).mPub

inductive Action where
  | pubReady (side : RequestSide)
  | subReady (side : RequestSide)
  | pubReadyCb (side : RequestSide)
  | subReadyCb (side : RequestSide)
  | send (data : Bytes)
  | request (message : Bytes)
  | reply (data : Bytes)
  | returned

def change (side : RequestSide) (f : Starting → Starting) (ends : RequestEnds) : RequestEnds :=
  { ends with starting := Function.update ends.starting side (f (ends.starting side)) }

/-- `sbfRequestSubSubMessageCb`, up to the call of the request callback. -/
def request (message : Bytes) (ends : RequestEnds) : RequestEnds :=
  if message.length < requestHeaderSize ∨ ends.requestSub.mRequestCb = none then ends
  else { ends with running := some ⟨none, some 0, Guid.ofBytes message, 1, none, 0⟩ }

/-- A ready event sets the flag of the publisher and puts its callback into the queue; the
callback sets the flag of the end. -/
def step : Action → RequestEnds → RequestEnds
  | .pubReady side, ends => ends.change side .pub_ready
  | .subReady side, ends => ends.change side .sub_ready
  | .pubReadyCb side, ends =>
      if (ends.starting side).pubReady then
        let ends := ends.change side .pubReadyQueueCb
        match side with
        | .requester => { ends with requestPub := ends.requestPub.pubReadyCb.1 }
        | .replier => { ends with requestSub := ends.requestSub.pubReadyCb.1 }
      else ends
  | .subReadyCb side, ends =>
      if (ends.starting side).subReady then
        let ends := ends.change side .subReadyQueueCb
        match side with
        | .requester => { ends with requestPub := ends.requestPub.subReadyCb.1 }
        | .replier => { ends with requestSub := ends.requestSub.subReadyCb.1 }
      else ends
  | .send data, ends =>
      match ends.requestPub.send ends.made data with
      | none => ends
      | some (requestPub, _, _) => { ends with requestPub := requestPub, made := ends.made + 1 }
  | .request message, ends => ends.request message
  | .reply _, ends => ends
  | .returned, ends => { ends with running := none }

/-- A request that `sbfRequestPub_send` returns, and a reply of legal size from a request
callback, has been handed to its stream. -/
def Works (handler : HandlerType) : Action → RequestEnds → Prop
  | .send data, ends => ∀ requestPub mGuid message,
      ends.requestPub.send ends.made data = some (requestPub, mGuid, message) →
      (ends.mPub .requester).Handed message
        ((ends.mPub .requester).fillAndSend handler.mPacketSize message)
  | .reply data, ends => ∀ req, ends.running = some req → data.length ≤ messageSizeLimit →
      (ends.mPub .replier).Handed (RequestSub.reply req data)
        ((ends.mPub .replier).fillAndSend handler.mPacketSize (RequestSub.reply req data))
  | _, _ => True

/-- There is room for the header, and the publisher of replies is ready. -/
def Fits : Action → RequestEnds → Prop
  | .send data, ends => ends.requestPub.mPubReady = true → ends.requestPub.mSubReady = true →
      requestHeaderSize + data.length ≤ messageSizeLimit
  | .reply data, ends => ends.running.isSome → data.length ≤ messageSizeLimit →
      (ends.mPub .replier).mReady = true ∧ requestHeaderSize + data.length ≤ messageSizeLimit
  | _, _ => True

/-- Nothing is destroyed, and an end that is ready has a publisher that is. -/
structure Sound (ends : RequestEnds) : Prop where
  alive : ∀ side, (ends.mPub side).mDestroyed = false
  queued : ∀ side, (ends.starting side).pubReady = true → (ends.mPub side).mReady = true
  ready : ends.requestPub.mPubReady = true → (ends.mPub .requester).mReady = true

theorem create_sound (requests replies : Topic) (fixed : UInt64 × UInt64 × UInt64)
    (requestCb : Option Nat) : (create requests replies fixed requestCb).Sound where
  alive side := by cases side <;> rfl
  queued side ready := by cases side <;> cases ready
  ready ready := by cases ready

theorem requestMessage_ne_nil (mGuid : Guid) (data : Bytes) : requestMessage mGuid data ≠ [] := by
  intro nothing
  have length := requestMessage_length mGuid data
  rw [nothing, List.length_nil, requestHeaderSize] at length
  omega

section Steps

variable {ends : RequestEnds}

theorem Sound.change (sound : ends.Sound) (side : RequestSide) (f : Starting → Starting)
    (alive : (f (ends.starting side)).mPub.mDestroyed = (ends.mPub side).mDestroyed)
    (kept : (ends.mPub side).mReady = true → (f (ends.starting side)).mPub.mReady = true)
    (queued : (f (ends.starting side)).pubReady = true →
      (f (ends.starting side)).mPub.mReady = true) : (ends.change side f).Sound where
  alive other := by
    rcases eq_or_ne other side with rfl | apart
    · simpa [mPub, RequestEnds.change] using alive.trans (sound.alive other)
    · simpa [mPub, RequestEnds.change, apart] using sound.alive other
  queued other := by
    rcases eq_or_ne other side with rfl | apart
    · simpa [mPub, RequestEnds.change] using queued
    · simpa [mPub, RequestEnds.change, apart] using sound.queued other
  ready has := by
    have was := sound.ready has
    rcases eq_or_ne .requester side with rfl | apart
    · simpa [mPub, RequestEnds.change] using kept was
    · simpa [mPub, RequestEnds.change, apart] using was

/-- What a send that returns a request has found and made. -/
theorem send_some {pub after : RequestPub} {number : Nat} {data message : Bytes} {mGuid : Guid}
    (sent : pub.send number data = some (after, mGuid, message)) :
    pub.mPubReady = true ∧ pub.mSubReady = true ∧ after.mPubReady = pub.mPubReady ∧
      message = requestMessage mGuid data := by
  unfold RequestPub.send at sent
  split at sent
  · cases sent
  · rename_i ready
    cases sent
    simp only [Bool.or_eq_true, Bool.not_eq_true', not_or, Bool.not_eq_false] at ready
    exact ⟨ready.1, ready.2, rfl, rfl⟩

theorem send_isSome {pub : RequestPub} (ready : pub.mPubReady = true) (ready' : pub.mSubReady = true)
    (number : Nat) (data : Bytes) :
    ∃ after mGuid, pub.send number data = some (after, mGuid, requestMessage mGuid data) := by
  simp [RequestPub.send, ready, ready']

theorem Sound.step (action : Action) (sound : ends.Sound) : (step action ends).Sound := by
  cases action with
  | pubReady side => exact sound.change side .pub_ready rfl (fun _ => rfl) (fun _ => rfl)
  | subReady side => exact sound.change side .sub_ready rfl id (sound.queued side)
  | pubReadyCb side =>
      simp only [RequestEnds.step]
      split
      · rename_i waits
        have after := sound.change side .pubReadyQueueCb rfl id (fun waits => by cases waits)
        cases side with
        | requester =>
            exact { after with ready := fun _ => sound.queued .requester waits }
        | replier => exact { after with ready := after.ready }
      · exact sound
  | subReadyCb side =>
      simp only [RequestEnds.step]
      split
      · have after := sound.change side .subReadyQueueCb rfl id (sound.queued side)
        cases side with
        | requester => exact { after with ready := after.ready }
        | replier => exact { after with ready := after.ready }
      · exact sound
  | send data =>
      simp only [RequestEnds.step]
      split
      · exact sound
      · rename_i sent
        exact { sound with ready := fun has => sound.ready ((send_some sent).2.2.1 ▸ has) }
  | request message =>
      simp only [RequestEnds.step, RequestEnds.request]
      split
      · exact sound
      · exact { sound with ready := sound.ready }
  | reply data => exact sound
  | returned => exact { sound with ready := sound.ready }

theorem unguarded_iff (sound : ends.Sound) (side : RequestSide) (message : Bytes) :
    (ends.mPub side).Unguarded message ↔
      (ends.mPub side).mReady = true ∧ message.length ≤ messageSizeLimit :=
  ⟨fun free => ⟨free.ready, free.limited⟩, fun both => ⟨both.1, sound.alive side, both.2⟩⟩

/-- A step hands over what it accepts exactly when it fits. -/
theorem works_iff (handler : HandlerType) (action : Action) (sound : ends.Sound) :
    Works handler action ends ↔ Fits action ends := by
  cases action with
  | send data =>
      constructor
      · intro works ready ready'
        obtain ⟨after, mGuid, sent⟩ := send_isSome ready ready' ends.made data
        have handed := works after mGuid _ sent
        rw [Pub.handed_iff handler _ _ (requestMessage_ne_nil mGuid data),
          unguarded_iff sound, requestMessage_length] at handed
        exact handed.2
      · intro fits after mGuid message sent
        obtain ⟨ready, ready', _, rfl⟩ := send_some sent
        rw [Pub.handed_iff handler _ _ (requestMessage_ne_nil mGuid data),
          unguarded_iff sound, requestMessage_length]
        exact ⟨sound.ready ready, fits ready ready'⟩
  | reply data =>
      have handed : ∀ req, (ends.mPub .replier).Handed (RequestSub.reply req data)
          ((ends.mPub .replier).fillAndSend handler.mPacketSize (RequestSub.reply req data)) ↔
          (ends.mPub .replier).mReady = true ∧
            requestHeaderSize + data.length ≤ messageSizeLimit := by
        intro req
        rw [RequestSub.reply, Pub.handed_iff handler _ _ (requestMessage_ne_nil _ data),
          unguarded_iff sound, requestMessage_length]
      constructor
      · intro works runs limited
        obtain ⟨req, runs⟩ := Option.isSome_iff_exists.mp runs
        exact (handed req).mp (works req runs limited)
      · intro fits req runs limited
        exact (handed req).mpr (fits (runs ▸ rfl) limited)
  | _ => exact Iff.rfl

end Steps

/-- In every order of the ready events, requests and replies are handed to their streams
exactly when each has room for its header and each reply a publisher that is ready. -/
theorem run_works_iff (handler : HandlerType) (requests replies : Topic)
    (fixed : UInt64 × UInt64 × UInt64) (requestCb : Option Nat) (actions : List Action) :
    TotalStep.Along step (Works handler) actions (create requests replies fixed requestCb) ↔
      TotalStep.Along step Fits actions (create requests replies fixed requestCb) :=
  TotalStep.along_iff Sound (fun action _ sound _ => sound.step action)
    (fun action _ sound => works_iff handler action sound) actions
    (create_sound requests replies fixed requestCb)

/-- A request comes before the publisher of replies is ready, and the reply is dropped; the
longest message that is allowed has no room for the header of a request. -/
theorem run_drops :
    (∃ actions, ¬ TotalStep.Along step (Works .udp) (actions ++
      [.request (requestMessage ⟨(1, 2, 0), 1⟩ []), .reply [7]])
      (create Pub.tick Pub.tick (1, 2, 0) (some 0))) ∧
    ∃ actions, ¬ TotalStep.Along step (Works .udp) (actions ++
      [.send (List.replicate messageSizeLimit 0)])
      (create Pub.tick Pub.tick (1, 2, 0) (some 0)) := by
  have start := create_sound Pub.tick Pub.tick (1, 2, 0) (some 0)
  constructor
  · refine ⟨[.subReady .replier, .subReadyCb .replier], fun works => ?_⟩
    have fits := (works_iff .udp _ (((start.step _).step _).step _)).mp works.2.2.2.1
    have ready := (fits rfl (by decide)).1
    cases ready
  · refine ⟨[.pubReady .requester, .pubReadyCb .requester, .subReady .requester,
      .subReadyCb .requester], fun works => ?_⟩
    have fits := (works_iff .udp _ ((((start.step _).step _).step _).step _)).mp works.2.2.2.2.1
    have room := fits rfl rfl
    rw [List.length_replicate] at room
    exact absurd room (by decide)

end RequestEnds

end Sbf
