import Sbf.RbTree
import Sbf.RequestGuid

set_option autoImplicit false

/-! Requests and their replies on one topic: the publishers of requests, the subscriptions
that reply, and the messages between them. -/

namespace Sbf

open Octets

/-- `struct sbfRequestImpl`, with the publisher or the subscription that it belongs to by its
number. Callbacks and closures are known by numbers too. -/
structure Request where
  mPub : Option Nat
  mSub : Option Nat
  mGuid : Guid
  mRefCount : UInt32
  mReplyCb : Option Nat
  mClosure : Nat

/-- `struct sbfRequestPubImpl`; the tree has the numbers of the requests. -/
structure RequestPub where
  mPubReady : Bool
  mSubReady : Bool
  mNext : Guid
  mRequests : RbTree Guid Nat

/-- `struct sbfRequestSubImpl` -/
structure RequestSub where
  mPubReady : Bool
  mSubReady : Bool
  mRequestCb : Option Nat
  mClosure : Nat
deriving DecidableEq, Repr

/-- A `sbfRequestHeader` with the data behind it. -/
def requestMessage (mGuid : Guid) (data : Bytes) : Bytes :=
  mGuid.bytes ++ (List.replicate 32 0 ++ data)

/-- `sizeof (sbfRequestHeader)` -/
def requestHeaderSize : Nat := 64

theorem requestMessage_length (mGuid : Guid) (data : Bytes) :
    (requestMessage mGuid data).length = requestHeaderSize + data.length := by
  simp only [requestMessage, List.length_append, Guid.bytes_length, List.length_replicate,
    requestHeaderSize]
  omega

theorem requestMessage_guid (mGuid : Guid) (data : Bytes) :
    Guid.ofBytes (requestMessage mGuid data) = mGuid := mGuid.ofBytes_bytes _

theorem requestMessage_data (mGuid : Guid) (data : Bytes) :
    (requestMessage mGuid data).drop requestHeaderSize = data := by
  rw [requestMessage, ← List.append_assoc]
  exact List.drop_left' (by simp [requestHeaderSize])

namespace RequestPub

/-- `sbfRequestPub_create`, with the first three parts that `sbfGuid_new` makes. -/
def create (fixed : UInt64 × UInt64 × UInt64) : RequestPub :=
  ⟨false, false, ⟨fixed, 0⟩, .empty⟩

/-- `sbfRequestPubPubReadyCb`, with whether it calls the ready callback. -/
def pubReadyCb (pub : RequestPub) : RequestPub × Bool :=
  ({ pub with mPubReady := true }, pub.mSubReady)

/-- `sbfRequestPubSubReadyCb` -/
def subReadyCb (pub : RequestPub) : RequestPub × Bool :=
  ({ pub with mSubReady := true }, pub.mPubReady)

/-- `sbfRequestPub_send` of the request with a number that is not in use: nothing when the
publisher is not ready, or the message that it sends. -/
def send (number : Nat) (data : Bytes) (pub : RequestPub) : Option (RequestPub × Guid × Bytes) :=
  if !pub.mPubReady || !pub.mSubReady then none
  else
    let mNext := pub.mNext.increment 1
    some ({ pub with mNext := mNext, mRequests := pub.mRequests.insert mNext number },
      mNext, requestMessage mNext data)

/-- The number of the request that a reply is for, and what the reply says. -/
def findRequest (message : Bytes) (pub : RequestPub) : Option (Nat × Bytes) :=
  if message.length < requestHeaderSize then none
  else
    (pub.mRequests.find (Guid.ofBytes message)).map fun number =>
      (number, message.drop requestHeaderSize)

end RequestPub

namespace RequestSub

/-- `sbfRequestSub_create` -/
def create (requestCb : Option Nat) (closure : Nat) : RequestSub :=
  ⟨false, false, requestCb, closure⟩

/-- `sbfRequestSubPubReadyCb`, with whether it calls the ready callback. -/
def pubReadyCb (sub : RequestSub) : RequestSub × Bool :=
  ({ sub with mPubReady := true }, sub.mSubReady)

/-- `sbfRequestSubSubReadyCb` -/
def subReadyCb (sub : RequestSub) : RequestSub × Bool :=
  ({ sub with mSubReady := true }, sub.mPubReady)

/-- `sbfRequestSub_reply`, by the message that it sends. -/
def reply (req : Request) (data : Bytes) : Bytes := requestMessage req.mGuid data

end RequestSub

end Sbf
