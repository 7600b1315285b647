import Mathlib.Data.Prod.Lex
import Mathlib.Data.Bool.Basic
import Sbf.EndpointEvents

set_option autoImplicit false

/-! The stream tables of the two handlers: the TCP mesh handler has one stream for
all topics, the UDP handler one for each type and multicast address. -/

namespace Sbf

/-- The field of `struct sbfTcpMeshHandlerImpl` that deals with streams. -/
structure TcpMeshHandler where
  mHandle : Option StreamId
  deriving DecidableEq, Repr

namespace TcpMeshHandler

/-- `mThread`, which `sbfTcpMeshHandlerCreate` sets to the first thread. -/
def mThread : Nat := 0

/-- `sbfTcpMeshHandlerFindStream` -/
def findStream (tmh : TcpMeshHandler) (_ : Topic) : Option StreamId := tmh.mHandle

/-- `sbfTcpMeshHandlerAddStream`, which returns the handler itself for the stream. -/
def addStream (tmh : TcpMeshHandler) (type : TopicType) (_ : Topic) (thread : Nat)
    (handle : StreamId) (closure : EndpointId) :
    Except Fault (TcpMeshHandler × Unit × List Event) :=
  if thread ≠ mThread then .error .assertion
  else if tmh.mHandle ≠ none then .error .assertion
  else .ok ({ tmh with mHandle := some handle }, (), [.complete type closure])

theorem addStream_completes {tmh after : TcpMeshHandler} {type : TopicType} {topic : Topic}
    {thread : Nat} {handle : StreamId} {closure : EndpointId} {mStream : Unit} {events : List Event}
    (added : tmh.addStream type topic thread handle closure = .ok (after, mStream, events)) :
    events = [.complete type closure] := by
  unfold addStream at added
  split at added
  · cases added
  · split at added
    · cases added
    · cases added
      rfl

/-- `sbfTcpMeshHandlerRemoveStream` has an empty body. -/
def removeStream (tmh : TcpMeshHandler) (_ : Unit) : TcpMeshHandler × List Event := (tmh, [])

/-- `sbfTcpMeshHandlerAddCompleteEventCb` makes no socket and reports no error. -/
def addComplete (_ : Bool) : Bool := false

def table : HandlerTable TcpMeshHandler Unit :=
  ⟨findStream, addStream, removeStream, addComplete, addStream_completes⟩

/-- A transport with one thread. -/
def oneThread : TportConfig TcpMeshHandler Unit := ⟨table, 1, 0xffffffffffffffff, fun _ => 1⟩

end TcpMeshHandler

/-- The fields of `struct sbfUdpHandlerStreamImpl` that deal with the table, with the
callback and closure of its completion. -/
structure UdpHandlerStream where
  mThread : Nat
  mHandle : StreamId
  mType : TopicType
  mAddress : UInt32
  callback : TopicType
  mClosure : EndpointId
  deriving DecidableEq, Repr

/-- The order of the UDP handler's tree: publishers first, then addresses. -/
abbrev UdpHandlerKey := Bool ×ₗ Nat

/-- `struct sbfUdpHandlerImpl`, by its tree of streams. -/
structure UdpHandler where
  mTree : RbTree UdpHandlerKey UdpHandlerStream

namespace UdpHandler

def key (mType : TopicType) (mAddress : UInt32) : UdpHandlerKey :=
  toLex (mType = .sub, mAddress.toNat)

section Functions

variable (makeAddress : Topic → UInt32) (uh : UdpHandler)

/-- `sbfUdpHandlerFindStream` -/
def findStream (topic : Topic) : Option StreamId :=
  (uh.mTree.find (key topic.mType (makeAddress topic))).map (·.mHandle)

/-- `sbfUdpHandlerAddStream` -/
def addStream (type : TopicType) (topic : Topic) (thread : Nat) (handle : StreamId)
    (closure : EndpointId) : Except Fault (UdpHandler × UdpHandlerStream × List Event) :=
  let uhs : UdpHandlerStream := ⟨thread, handle, topic.mType, makeAddress topic, type, closure⟩
  .ok (⟨uh.mTree.insert (key uhs.mType uhs.mAddress) uhs⟩, uhs, [.complete type closure])

/-- `sbfUdpHandlerRemoveStream` -/
def removeStream (uhs : UdpHandlerStream) : UdpHandler × List Event :=
  (⟨uh.mTree.erase (key uhs.mType uhs.mAddress)⟩, [.complete uhs.callback uhs.mClosure])

end Functions

/-- `sbfUdpHandlerAddCompleteEventCb` reports that its socket could not be made. -/
def addComplete (failed : Bool) : Bool := failed

def table (makeAddress : Topic → UInt32) : HandlerTable UdpHandler UdpHandlerStream :=
  ⟨findStream makeAddress, addStream makeAddress, removeStream, addComplete, by
    intro _ _ _ _ _ _ _ _ _ added
    cases added
    rfl⟩

/-- A transport with one thread and one multicast address. -/
def oneThread : TportConfig UdpHandler UdpHandlerStream :=
  ⟨table (fun _ => 0xe0000001), 1, 0xffffffffffffffff, fun _ => 1⟩

end UdpHandler

end Sbf
