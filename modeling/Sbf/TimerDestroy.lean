import Sbf.TotalSteps

set_option autoImplicit false

/-! Timers and events: an event of libevent that is armed again each time, the items that wait
in a queue, and one call of destroy. -/

namespace Sbf

inductive TimerKind where
  | timer
  | event
deriving DecidableEq, Repr

/-- What the event callback stores in an item; that of a timer stores nothing. -/
def TimerKind.itemData : TimerKind → Int16 → Option Int32
  | .timer, _ => none
  | .event, events => some events.toInt32

/-- Where the event thread stands in `sbfTimerEventCb` or `sbfEventEventCb`, by what it does next. -/
inductive EventCb where
  | idle
  | add (events : Int16)
  | check (events : Int16)
  | increment (events : Int16)
  | enqueue (events : Int16)
deriving DecidableEq, Repr

/-- The item that is counted and not yet enqueued. -/
def EventCb.references : EventCb → Nat
  | .enqueue _ => 1
  | _ => 0

/-- Where the thread of the queue stands in `sbfTimerQueueCb` or `sbfEventQueueCb`. -/
inductive QueueCb where
  | idle
  | check (data : Option Int32)
  | mCb (data : Option Int32)
  | inside
  | decrement
deriving DecidableEq, Repr

/-- The item that is being dispatched. -/
def QueueCb.references : QueueCb → Nat
  | .idle => 0
  | _ => 1

/-- Where the call of `sbfTimer_destroy` or `sbfEvent_destroy` stands. -/
inductive DestroyCall where
  | mark
  | delete
  | decrement
  | returned
deriving DecidableEq, Repr

/-- `struct sbfTimerImpl` or `struct sbfEventImpl`; `mEvent` tells whether the event is armed. -/
structure TimerOrEvent where
  mDestroyed : Bool
  mRefCount : UInt32
  mEvent : Bool
  items : List (Option Int32)
  eventCb : EventCb
  queueCb : QueueCb
  destroyCall : DestroyCall
  freed : Nat
deriving DecidableEq, Repr

namespace TimerOrEvent

/-- `sbfTimer_create_disabled`; the other creates arm the event. -/
def create (enabled : Bool) : TimerOrEvent where
  mDestroyed := false
  mRefCount := 1
  mEvent := enabled
  items := []
  eventCb := .idle
  queueCb := .idle
  destroyCall := .mark
  freed := 0

/-- `sbfRefCount_decrement`, and `free` when it comes to zero. -/
def drop (object : TimerOrEvent) : TimerOrEvent :=
  { object with
    mRefCount := object.mRefCount - 1
    freed := if object.mRefCount - 1 = 0 then object.freed + 1 else object.freed }

/-- `sbfTimer_enable`, which is not called any more when the timer is being destroyed. -/
def enable (object : TimerOrEvent) : TimerOrEvent :=
  if object.destroyCall = .mark then { object with mEvent := true } else object

/-- libevent calls the callback of an armed event. -/
def expire (events : Int16) (object : TimerOrEvent) : TimerOrEvent :=
  if object.mEvent = true ∧ object.eventCb = .idle then
    { object with mEvent := false, eventCb := .add events }
  else object

/-- The next step of `sbfTimerEventCb` or `sbfEventEventCb`. -/
def runEventCb (kind : TimerKind) (object : TimerOrEvent) : TimerOrEvent :=
  match object.eventCb with
  | .idle => object
  | .add events => { object with mEvent := true, eventCb := .check events }
  | .check events =>
      { object with eventCb := if !object.mDestroyed then .increment events else .idle }
  | .increment events =>
      { object with mRefCount := object.mRefCount + 1, eventCb := .enqueue events }
  | .enqueue events =>
      { object with items := object.items ++ [kind.itemData events], eventCb := .idle }

/-- The next step of the thread that dispatches the queue. -/
def dispatch (object : TimerOrEvent) : TimerOrEvent :=
  match object.queueCb with
  | .idle =>
      match object.items with
      | [] => object
      | data :: rest => { object with items := rest, queueCb := .check data }
  | .check data =>
      { object with queueCb := if !object.mDestroyed then .mCb data else .decrement }
  | .mCb _ => { object with queueCb := .inside }
  | .inside => { object with queueCb := .decrement }
  | .decrement => { object.drop with queueCb := .idle }

/-- The next step of `sbfTimer_destroy` or `sbfEvent_destroy`. `event_del` waits until the
event's callback does not run. -/
def destroy (object : TimerOrEvent) : TimerOrEvent :=
  match object.destroyCall with
  | .mark => { object with mDestroyed := true, destroyCall := .delete }
  | .delete =>
      if object.eventCb = .idle then
        { object with mEvent := false, destroyCall := .decrement }
      else object
  | .decrement => { object.drop with destroyCall := .returned }
  | .returned => object

inductive Action where
  | enable
  | expire (events : Int16)
  | eventCb
  | dispatch
  | destroy
deriving DecidableEq, Repr

def step (kind : TimerKind) : Action → TimerOrEvent → TimerOrEvent
  | .enable => enable
  | .expire events => expire events
  | .eventCb => runEventCb kind
  | .dispatch => dispatch
  | .destroy => destroy

/-- The reference of the creator, until destroy drops it. -/
def owner (object : TimerOrEvent) : Nat :=
  if object.destroyCall = .returned then 0 else 1

/-- The items, from where they are counted to where that is undone. -/
def references (object : TimerOrEvent) : Nat :=
  object.items.length + object.eventCb.references + object.queueCb.references

/-- What destroy is to be safe for: the count is what there is, the object is freed once when
there is nothing left, libevent has let go of it before that, and no callback of the user comes
next when the object is destroyed. -/
structure Kept (object : TimerOrEvent) : Prop where
  count : object.mRefCount.toNat = object.owner + object.references
  freed : object.freed = if object.owner + object.references = 0 then 1 else 0
  stopped : object.destroyCall = .decrement ∨ object.destroyCall = .returned →
    object.mEvent = false ∧ object.eventCb = .idle
  starts : ∀ data, object.queueCb = .mCb data → object.mDestroyed = false

/-- The count has room for one more item when it is incremented, and destroy does not come
between the test of `mDestroyed` on the queue's thread and the call of the user's callback. -/
def Clean : Action → TimerOrEvent → Prop
  | .eventCb, object => ∀ events, object.eventCb = .increment events →
      object.mRefCount.toNat + 1 < UInt32.size
  | .destroy, object => object.destroyCall = .mark → ∀ data, object.queueCb ≠ .mCb data
  | _, _ => True

end TimerOrEvent

end Sbf
