import Sbf.TotalSteps
import Mathlib.Logic.Function.Basic

set_option autoImplicit false

/-! A TCP listener, the connections that it accepts, and the items that they have in queues. -/

namespace Sbf

/-- Where the call of `sbfTcpConnection_destroy` stands. -/
inductive TcpDestroy where
  | uncalled
  | closed
  | returned
deriving DecidableEq, Repr

/-- `struct sbfTcpConnectionImpl`; `mEvent` tells whether there is a bufferevent that calls back.
The last four are history: the accept callback got the connection, `sbfTcpConnection_accept` was
called with it, and how often its socket was closed and the connection freed. -/
structure TcpConnection where
  mDestroyed : Bool
  mRefCount : Int
  mEvent : Bool
  mQueued : Bool
  destroyCall : TcpDestroy
  handed : Bool
  accepted : Bool
  closed : Nat
  freed : Nat
deriving DecidableEq, Repr

/-- `struct sbfTcpListenerImpl` -/
structure TcpListener where
  mDestroyed : Bool
  mRefCount : Int
  mListener : Bool
  freed : Nat
deriving DecidableEq, Repr

/-- The callbacks that are enqueued, with their closures. -/
inductive TcpItem where
  | listenerReady
  | accept (tc : Nat)
  | ready (tc : Nat)
  | error (tc : Nat)
  | read (tc : Nat)
deriving DecidableEq, Repr

/-- The item has a reference to the listener. -/
def TcpItem.holdsListener : TcpItem → Bool
  | listenerReady | accept _ => true
  | _ => false

/-- The item has a reference to a connection. -/
def TcpItem.holds (tc : Nat) : TcpItem → Bool
  | ready other | error other | read other => other = tc
  | _ => false

/-- A listener with its connections by their numbers; `running` are the items whose callbacks
have started. -/
structure TcpNetwork where
  listener : TcpListener
  connections : Nat → Option TcpConnection
  made : Nat
  items : List TcpItem
  running : List TcpItem

/-- `sbfRefCount_decrement`, and `free` when it comes to zero. -/
def TcpListener.drop (tl : TcpListener) : TcpListener :=
  { tl with
    mRefCount := tl.mRefCount - 1
    freed := if tl.mRefCount - 1 = 0 then tl.freed + 1 else tl.freed }

def TcpConnection.drop (tc : TcpConnection) : TcpConnection :=
  { tc with
    mRefCount := tc.mRefCount - 1
    freed := if tc.mRefCount - 1 = 0 then tc.freed + 1 else tc.freed }

namespace TcpConnection

/-- `sbfTcpConnection_wrap`, of a socket that was just accepted. -/
def wrap : TcpConnection := ⟨false, 0, false, false, .uncalled, false, false, 0, 0⟩

/-- `sbfTcpConnection_accept`, with whether the bufferevent could be made. -/
def accept (success : Bool) (tc : TcpConnection) : TcpConnection :=
  if tc.handed = true ∧ tc.accepted = false ∧ tc.destroyCall = .uncalled then
    { tc with
      mDestroyed := false
      mRefCount := 1
      mQueued := false
      mEvent := success
      accepted := true }
  else tc

/-- The next step of `sbfTcpConnection_destroy`, which the user calls once. `bufferevent_free`
lets no callback run any more. -/
def destroy (tc : TcpConnection) : TcpConnection :=
  match tc.destroyCall with
  | .uncalled =>
      if tc.handed then { tc with mDestroyed := true, closed := tc.closed + 1, destroyCall := .closed }
      else tc
  | .closed => { tc with mEvent := false, destroyCall := .returned }.drop
  | .returned => tc

/-- The end of `sbfTcpConnectionReadQueueCb`. -/
def readDone (tc : TcpConnection) : TcpConnection :=
  (if !tc.mDestroyed then { tc with mQueued := false } else tc).drop

end TcpConnection

namespace TcpNetwork

/-- `sbfTcpListener_create` -/
def create : TcpNetwork where
  listener := ⟨false, 2, true, 0⟩
  connections := fun _ => none
  made := 0
  items := [.listenerReady]
  running := []

/-- `sbfTcpListenerEventCb` -/
def listenerEventCb (net : TcpNetwork) : TcpNetwork :=
  if net.listener.mListener then
    { net with
      listener := { net.listener with mRefCount := net.listener.mRefCount + 1 }
      connections := Function.update net.connections net.made (some .wrap)
      made := net.made + 1
      items := net.items ++ [.accept net.made] }
  else net

/-- A change of a connection. -/
def modify (number : Nat) (change : TcpConnection → TcpConnection) (net : TcpNetwork) :
    TcpNetwork :=
  match net.connections number with
  | none => net
  | some tc => { net with connections := Function.update net.connections number (some (change tc)) }

/-- An item is taken from its queue and its callback starts. `sbfTcpListenerAcceptQueueCb`
calls the user's callback, or frees the connection and returns. -/
def dispatch (item : TcpItem) (net : TcpNetwork) : TcpNetwork :=
  if item ∈ net.items then
    let started := { net with
      items := net.items.erase item
      running := net.running ++ [item] }
    match item with
    | .accept number =>
        if !net.listener.mDestroyed then
          started.modify number (fun tc => { tc with handed := true })
        else
          { net with items := net.items.erase item, listener := net.listener.drop }.modify number
            (fun tc => { tc with freed := tc.freed + 1 })
    | _ => started
  else net

/-- The callback of an item returns. -/
def finish (item : TcpItem) (net : TcpNetwork) : TcpNetwork :=
  if item ∈ net.running then
    let net := { net with running := net.running.erase item }
    match item with
    | .listenerReady | .accept _ => { net with listener := net.listener.drop }
    | .ready number | .error number => net.modify number TcpConnection.drop
    | .read number => net.modify number TcpConnection.readDone
  else net

/-- The user accepts a connection. -/
def accept (number : Nat) (success : Bool) (net : TcpNetwork) : TcpNetwork :=
  net.modify number (.accept success)

/-- The user destroys a connection. -/
def destroy (number : Nat) (net : TcpNetwork) : TcpNetwork := net.modify number .destroy

/-- `sbfTcpConnectionEventReadCb` -/
def readCb (number : Nat) (net : TcpNetwork) : TcpNetwork :=
  match net.connections number with
  | none => net
  | some tc =>
      if tc.mEvent && !tc.mQueued then
        { net with
          connections := Function.update net.connections number
            (some { tc with mQueued := true, mRefCount := tc.mRefCount + 1 })
          items := net.items ++ [.read number] }
      else net

/-- `sbfTcpConnectionEventEventCb`, with whether the event is `BEV_EVENT_CONNECTED`. -/
def eventCb (number : Nat) (connected : Bool) (net : TcpNetwork) : TcpNetwork :=
  match net.connections number with
  | none => net
  | some tc =>
      if tc.mEvent then
        { net with
          connections := Function.update net.connections number
            (some { tc with mRefCount := tc.mRefCount + 1 })
          items := net.items ++ [if connected then .ready number else .error number] }
      else net

/-- The next step of `sbfTcpListener_destroy`. -/
def destroyListener (net : TcpNetwork) : TcpNetwork :=
  if !net.listener.mDestroyed then
    { net with listener := { net.listener with mDestroyed := true } }
  else if net.listener.mListener then
    { net with listener := { net.listener with mListener := false }.drop }
  else net

inductive Action where
  | listenerEventCb
  | dispatch (item : TcpItem)
  | finish (item : TcpItem)
  | accept (number : Nat) (success : Bool)
  | destroy (number : Nat)
  | readCb (number : Nat)
  | eventCb (number : Nat) (connected : Bool)
  | destroyListener
deriving DecidableEq, Repr

def step : Action → TcpNetwork → TcpNetwork
  | .listenerEventCb => listenerEventCb
  | .dispatch item => dispatch item
  | .finish item => finish item
  | .accept number success => accept number success
  | .destroy number => destroy number
  | .readCb number => readCb number
  | .eventCb number connected => eventCb number connected
  | .destroyListener => destroyListener

/-- All items are dispatched, and the listener and all connections that the user got are
destroyed. -/
structure Quiescent (net : TcpNetwork) : Prop where
  items : net.items = []
  running : net.running = []
  listener : net.listener.mListener = false
  connections : ∀ number tc, net.connections number = some tc → tc.handed = true →
    tc.destroyCall = .returned

/-- Every socket is closed once, and every connection and the listener are freed once. -/
structure Balanced (net : TcpNetwork) : Prop where
  listener : net.listener.freed = 1
  connections : ∀ number tc, net.connections number = some tc → tc.closed = 1 ∧ tc.freed = 1

/-- The listener is not destroyed while a connection waits for its accept callback, none comes
in while it is being destroyed, and only connections that were accepted are destroyed. -/
def Clean : Action → TcpNetwork → Prop
  | .listenerEventCb, net => net.listener.mListener = true → net.listener.mDestroyed = false
  | .destroyListener, net => net.listener.mDestroyed = false →
      ∀ number, .accept number ∉ net.items
  | .destroy number, net => ∀ tc, net.connections number = some tc → tc.handed = true →
      tc.destroyCall = .uncalled → tc.accepted = true
  | _, _ => True

end TcpNetwork

end Sbf
