import Sbf.RequestReply
import Sbf.TotalSteps

set_option autoImplicit false

/-! All publishers and subscriptions of one topic, over any order of calls and deliveries. -/

namespace Sbf

open Octets

/-- A message on its way, with the request that it is about. -/
structure RequestMessage where
  request : Nat
  bytes : Bytes

/-- A call of `sbfRequestPub_send` that has returned a request. -/
structure RequestSend where
  request : Nat
  mGuid : Guid
  pub : Nat
  replyCb : Option Nat
  closure : Nat

/-- A call of a reply callback, with the count of the request as it was then. -/
structure RequestCall where
  pub : Nat
  request : Nat
  callback : Nat
  closure : Nat
  data : Bytes
  mRefCount : UInt32

/-- Requests are numbered as they are made, sent and received ones together; a number
without one has been freed, or is not in use yet. `running` are the received requests whose
callback has not returned. The history: the request that a received one is `about`, what was
sent, what was passed to `sbfRequest_reply`, and the reply callbacks that ran. -/
structure Requests where
  pubs : List RequestPub
  subs : List RequestSub
  requests : Nat → Option Request
  made : Nat
  running : List Nat
  asked : List RequestMessage
  answered : List RequestMessage
  about : Nat → Nat
  sends : List RequestSend
  replies : List (Nat × Bytes)
  calls : List RequestCall

namespace Requests

def create : Requests := ⟨[], [], fun _ => none, 0, [], [], [], id, [], [], []⟩

/-- `sbfRequestPub_send` -/
def send (pub : Nat) (data : Bytes) (replyCb : Option Nat) (closure : Nat) (world : Requests) :
    Requests :=
  match world.pubs[pub]? with
  | none => world
  | some sender =>
      match sender.send world.made data with
      | none => world
      | some (sender, mGuid, message) =>
          { world with
            pubs := world.pubs.set pub sender
            requests := Function.update world.requests world.made
              (some ⟨some pub, none, mGuid, 1, replyCb, closure⟩)
            made := world.made + 1
            asked := world.asked ++ [⟨world.made, message⟩]
            sends := world.sends ++ [⟨world.made, mGuid, pub, replyCb, closure⟩] }

/-- `sbfRequestPubSubMessageCb`, up to the call of the reply callback. -/
def deliverReply (pub message : Nat) (world : Requests) : Requests :=
  match world.pubs[pub]?, world.answered[message]? with
  | some receiver, some message =>
      match receiver.findRequest message.bytes with
      | none => world
      | some (number, data) =>
          match world.requests number with
          | none => world
          | some req =>
              match req.mReplyCb with
              | none => world
              | some callback =>
                  { world with calls := world.calls ++
                      [⟨pub, number, callback, req.mClosure, data, req.mRefCount⟩] }
  | _, _ => world

/-- `sbfRequestSubSubMessageCb`, up to the call of the request callback. Without a callback
the request is gone at once. -/
def deliverRequest (sub message : Nat) (world : Requests) : Requests :=
  match world.subs[sub]?, world.asked[message]? with
  | some receiver, some message =>
      if message.bytes.length < requestHeaderSize then world
      else
        match receiver.mRequestCb with
        | none => world
        | some _ =>
            { world with
              requests := Function.update world.requests world.made
                (some ⟨none, some sub, Guid.ofBytes message.bytes, 1, none, 0⟩)
              made := world.made + 1
              about := Function.update world.about world.made message.request
              running := world.made :: world.running }
  | _, _ => world

/-- `sbfRequest_reply`, which is fatal on a request that was sent. -/
def reply (number : Nat) (data : Bytes) (world : Requests) : Requests :=
  match world.requests number with
  | none => world
  | some req =>
      match req.mSub with
      | none => world
      | some _ =>
          { world with
            answered := world.answered ++ [⟨world.about number, RequestSub.reply req data⟩]
            replies := world.replies ++ [(world.about number, data)] }

/-- `sbfRequest_detach` -/
def detach (number : Nat) (world : Requests) : Requests :=
  match world.requests number with
  | none => world
  | some req =>
      { world with
        requests := Function.update world.requests number
          (some { req with mRefCount := req.mRefCount + 1 }) }

/-- `RB_REMOVE` of a request that was sent, from the tree of its publisher. -/
def remove (req : Request) (pubs : List RequestPub) : List RequestPub :=
  match req.mPub with
  | none => pubs
  | some pub => pubs.modify pub fun sender =>
      { sender with mRequests := sender.mRequests.erase req.mGuid }

/-- `sbfRequest_destroy` -/
def destroy (number : Nat) (world : Requests) : Requests :=
  match world.requests number with
  | none => world
  | some req =>
      if req.mRefCount - 1 ≠ 0 then
        { world with
          requests := Function.update world.requests number
            (some { req with mRefCount := req.mRefCount - 1 }) }
      else
        { world with
          requests := Function.update world.requests number none
          pubs := remove req world.pubs }

/-- The request callback returns, and `sbfRequestSubSubMessageCb` drops its reference. -/
def returned (number : Nat) (world : Requests) : Requests :=
  if number ∈ world.running then
    { world with running := world.running.erase number }.destroy number
  else world

/-- A caller drops a reference of its own, so not the last one while the request callback
runs. -/
def drop (number : Nat) (world : Requests) : Requests :=
  match world.requests number with
  | none => world
  | some req =>
      if number ∈ world.running ∧ req.mRefCount = 1 then world else world.destroy number

inductive Action where
  | createPub (fixed : UInt64 × UInt64 × UInt64)
  | createSub (requestCb : Option Nat) (closure : Nat)
  | pubReady (pub : Nat)
  | subReady (pub : Nat)
  | send (pub : Nat) (data : Bytes) (replyCb : Option Nat) (closure : Nat)
  | deliverRequest (sub message : Nat)
  | returned (number : Nat)
  | deliverReply (pub message : Nat)
  | reply (number : Nat) (data : Bytes)
  | detach (number : Nat)
  | destroy (number : Nat)

def step : Action → Requests → Requests
  | .createPub fixed, world => { world with pubs := world.pubs ++ [.create fixed] }
  | .createSub requestCb closure, world =>
      { world with subs := world.subs ++ [.create requestCb closure] }
  | .pubReady pub, world =>
      { world with pubs := world.pubs.modify pub fun sender => sender.pubReadyCb.1 }
  | .subReady pub, world =>
      { world with pubs := world.pubs.modify pub fun sender => sender.subReadyCb.1 }
  | .send pub data replyCb closure, world => world.send pub data replyCb closure
  | .deliverRequest sub message, world => world.deliverRequest sub message
  | .returned number, world => world.returned number
  | .deliverReply pub message, world => world.deliverReply pub message
  | .reply number data, world => world.reply number data
  | .detach number, world => world.detach number
  | .destroy number, world => world.drop number

def run (actions : List Action) (world : Requests) : Requests := TotalStep.run step actions world

/-- Publishers differ in the first three parts of their GUIDs, and none of them sends
2 ^ 64 requests. -/
def Fresh : Action → Requests → Prop
  | .createPub fixed, world => ∀ pub ∈ world.pubs, pub.mNext.fixed ≠ fixed
  | .send pub _ _ _, world => world.sends.countP (·.pub = pub) + 1 < 2 ^ 64
  | _, _ => True

/-- No request has so many references that its count wraps. -/
def Counted : Action → Requests → Prop
  | .detach number, world => ∀ req, world.requests number = some req → req.mRefCount + 1 ≠ 0
  | _, _ => True

/-- A condition on each step of a run. -/
abbrev Along (p : Action → Requests → Prop) (actions : List Action) (world : Requests) : Prop :=
  TotalStep.Along step p actions world

end Requests

end Sbf
