import Sbf.LinkedChain

set_option autoImplicit false

/-! The lock-free queue, one read or write of the shared memory at a time. -/

namespace Sbf

/-- An item by its address, or the one that is part of the queue. -/
inductive QueueItem where
  | mEmpty
  | item (address : Nat)
deriving DecidableEq, Repr

/-- What `sbfQueueNext` is about to do, or what its last call has returned. -/
inductive QueueNext where
  | returned (item : Option QueueItem)
  | readNext (tail : QueueItem)
  | skipEmpty (next : QueueItem)
  | readBehind (tail : QueueItem)
  | take (tail next : QueueItem)
  | readHead (tail : QueueItem)
  | insertEmpty (tail : QueueItem) (appending : Appending QueueItem)
  | readAgain (tail : QueueItem)

/-- The queue with where its producers and its consumer stand. An item is `inside` from
the call that enqueues it until it is returned. `exchanged` and `returned` are the
history: the items in the order in which they became the head, and what was returned. -/
structure Queue where
  mHead : QueueItem
  mTail : QueueItem
  mNext : QueueItem → Option QueueItem
  producers : Nat → Option (Appending QueueItem)
  consumer : QueueNext
  inside : Nat → Bool
  exchanged : List Nat
  returned : List QueueItem

namespace Queue

/-- `sbfQueueCreate`; the memory of the items to come may hold anything. -/
def create (memory : QueueItem → Option QueueItem) : Queue where
  mHead := .mEmpty
  mTail := .mEmpty
  mNext := Function.update memory .mEmpty none
  producers _ := none
  consumer := .returned none
  inside _ := false
  exchanged := []
  returned := []

/-- One step of `sbfQueueEnqueue1`, and what is left to do of it. -/
def enqueue1 (queue : Queue) : Appending QueueItem → Queue × Option (Appending QueueItem)
  | .clear item =>
      ({ queue with mNext := Function.update queue.mNext item none }, some (.exchange item))
  | .exchange item =>
      ({ queue with
          mHead := item
          exchanged := match item with
            | .item address => queue.exchanged ++ [address]
            | .mEmpty => queue.exchanged }, some (.link item queue.mHead))
  | .link item last => ({ queue with mNext := Function.update queue.mNext last (some item) }, none)

/-- A thread calls `sbfQueueEnqueue` with an item of its own. -/
def enqueue (thread address : Nat) (queue : Queue) : Queue :=
  if queue.producers thread = none ∧ queue.inside address = false then
    { queue with
      producers := Function.update queue.producers thread (some (.clear (.item address)))
      inside := Function.update queue.inside address true }
  else queue

/-- The next step of a thread in `sbfQueueEnqueue`. -/
def produce (thread : Nat) (queue : Queue) : Queue :=
  match queue.producers thread with
  | none => queue
  | some appending =>
      let (next, more) := queue.enqueue1 appending
      { next with producers := Function.update queue.producers thread more }

/-- `return tail`: the item is the caller's again. -/
def giveBack (inside : Nat → Bool) : QueueItem → Nat → Bool
  | .mEmpty => inside
  | .item address => Function.update inside address false

/-- A call of `sbfQueueNext` begins. -/
def callNext (queue : Queue) : Queue := { queue with consumer := .readNext queue.mTail }

/-- The next step of `sbfQueueNext`. -/
def consume (queue : Queue) : Queue :=
  match queue.consumer with
  | .returned _ => queue.callNext
  | .readNext tail =>
      if tail = .mEmpty then
        match queue.mNext tail with
        | none => { queue with consumer := .returned none }
        | some next => { queue with consumer := .skipEmpty next }
      else
        match queue.mNext tail with
        | none => { queue with consumer := .readHead tail }
        | some next => { queue with consumer := .take tail next }
  | .skipEmpty next => { queue with mTail := next, consumer := .readBehind next }
  | .readBehind tail =>
      match queue.mNext tail with
      | none => { queue with consumer := .readHead tail }
      | some next => { queue with consumer := .take tail next }
  | .take tail next => { queue with
      mTail := next
      consumer := .returned (some tail)
      inside := giveBack queue.inside tail
      returned := queue.returned ++ [tail] }
  | .readHead tail =>
      if tail ≠ queue.mHead then { queue with consumer := .returned none }
      else { queue with consumer := .insertEmpty tail (.clear .mEmpty) }
  | .insertEmpty tail appending =>
      let (next, more) := queue.enqueue1 appending
      { next with consumer := more.elim (.readAgain tail) (.insertEmpty tail) }
  | .readAgain tail =>
      match queue.mNext tail with
      | some next => { queue with consumer := .take tail next }
      | none => { queue with consumer := .returned none }

inductive Action where
  | enqueue (thread address : Nat)
  | produce (thread : Nat)
  | consume

def step : Action → Queue → Queue
  | .enqueue thread address => enqueue thread address
  | .produce thread => produce thread
  | .consume => consume

/-- The steps of all threads in any order. -/
def run (actions : List Action) (queue : Queue) : Queue :=
  actions.foldl (fun queue action => step action queue) queue

end Queue

end Sbf
