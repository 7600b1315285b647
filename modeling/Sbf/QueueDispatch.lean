import Sbf.QueueFifo

set_option autoImplicit false

/-! The queue with its pool of items and its references, from `sbfQueue_create` to the last
`sbfQueue_removeRef`. Thread 0 is the one that calls `sbfQueue_destroy`. -/

namespace Sbf

/-- A pool by the addresses of the items that were put back. -/
structure Pool where
  mAvailable : List Nat
  mFree : List Nat
  fresh : Nat

namespace Pool

def create : Pool := ⟨[], [], 0⟩

/-- `sbfPool_get` -/
def get (pool : Pool) : Nat × Pool :=
  match pool.mAvailable with
  | item :: rest => (item, { pool with mAvailable := rest })
  | [] =>
      match pool.mFree with
      | item :: rest => (item, { pool with mAvailable := rest, mFree := [] })
      | [] => (pool.fresh, { pool with fresh := pool.fresh + 1 })

/-- `sbfPool_put` -/
def put (item : Nat) (pool : Pool) : Pool := { pool with mFree := item :: pool.mFree }

end Pool

/-- What a thread is about to do in `sbfQueue_enqueue`, with the callback that it was
called with; `failed` after the assertion of `sbfQueue_enqueueItem` has ended it. -/
inductive Enqueuing where
  | idle
  | getItem (cb : Option Nat)
  | setCb (item : Nat) (cb : Option Nat)
  | readExited (item : Nat)
  | enqueue
  | failed

/-- What `sbfQueue_destroy` is about to do. -/
inductive Destroying where
  | idle
  | addRef
  | enqueue
  | setExited
  | removeRef
  | finished
deriving DecidableEq

/-- What `sbfQueue_dispatch` is about to do. That an item is the `marker` is history: its
`mCb` was `NULL` when it was dequeued. -/
inductive Dispatching where
  | addRef
  | dequeue
  | readCb (item : Nat)
  | callback (item : Nat)
  | put (item : Nat) (marker : Bool)
  | testCb (item : Nat) (marker : Bool)
  | removeMarker
  | removeRef
  | finished

/-- The queue and its threads. History: `queued` has the callbacks of the items in the order
in which they were queued, `ran` those that were called, `tests` whether the item was the
marker and whether the loop was left, for each test. `rewritten` says that what was last
stored into the `mCb` that is to be tested, since `sbfPool_put`, is `NULL` in the place of a
callback or a callback in the place of `NULL`, and `stale` that a test has met such a one. -/
structure QueueLife where
  queue : Queue
  pool : Pool
  mCb : Nat → Option Nat
  mExited : Bool
  mRefCount : Nat
  freed : Bool
  callers : Nat → Enqueuing
  destroyer : Destroying
  dispatcher : Dispatching
  queued : List (Option Nat)
  ran : List Nat
  tests : List (Bool × Bool)
  rewritten : Bool
  stale : Bool

namespace QueueLife

/-- `sbfQueue_create`; the items to come may hold anything. -/
def create (memory : QueueItem → Option QueueItem) (mCb : Nat → Option Nat) : QueueLife where
  queue := .create memory
  pool := .create
  mCb := mCb
  mExited := false
  mRefCount := 1
  freed := false
  callers _ := .idle
  destroyer := .idle
  dispatcher := .addRef
  queued := []
  ran := []
  tests := []
  rewritten := false
  stale := false

def setCaller (thread : Nat) (caller : Enqueuing) (state : QueueLife) : QueueLife :=
  { state with callers := Function.update state.callers thread caller }

/-- `sbfQueue_addRef` -/
def addRef (state : QueueLife) : QueueLife := { state with mRefCount := state.mRefCount + 1 }

/-- `sbfQueue_removeRef` -/
def removeRef (state : QueueLife) : QueueLife :=
  { state with
    mRefCount := state.mRefCount - 1
    freed := state.freed || state.mRefCount == 1 }

/-- Whether the `mCb` that is to be tested is of the other kind after `cb` was stored. -/
def rewrites (item : Nat) (cb : Option Nat) (state : QueueLife) : Bool :=
  match state.dispatcher with
  | .testCb tested marker => if item = tested then cb.isNone != marker else state.rewritten
  | _ => state.rewritten

/-- A thread calls `sbfQueue_enqueue` with a callback. -/
def enqueue (thread cb : Nat) (state : QueueLife) : QueueLife :=
  match thread, state.callers thread with
  | _ + 1, .idle => state.setCaller thread (.getItem (some cb))
  | _, _ => state

/-- The address that the next step of a thread puts at the head, if it does. -/
def exchanges (queue : Queue) (thread : Nat) : List Nat :=
  match queue.producers thread with
  | some (.exchange (.item address)) => [address]
  | _ => []

/-- The next step of a thread in `sbfQueue_enqueue`. -/
def call (thread : Nat) (state : QueueLife) : QueueLife :=
  match state.callers thread with
  | .idle | .failed => state
  | .getItem cb =>
      let (item, pool) := state.pool.get
      { state with pool := pool }.setCaller thread (.setCb item cb)
  | .setCb item cb =>
      { state with
        mCb := Function.update state.mCb item cb
        rewritten := state.rewrites item cb }.setCaller thread (.readExited item)
  | .readExited item =>
      if state.mExited then state.setCaller thread .failed
      else { state with queue := state.queue.enqueue thread item }.setCaller thread .enqueue
  | .enqueue =>
      if state.queue.producers thread = none then state.setCaller thread .idle
      else { state with
        queue := state.queue.produce thread
        queued := state.queued ++ (exchanges state.queue thread).map state.mCb }

/-- The next step of `sbfQueue_destroy`. -/
def destroy (state : QueueLife) : QueueLife :=
  match state.destroyer with
  | .idle => { state with destroyer := .addRef }
  | .addRef => { state.addRef with destroyer := .enqueue }.setCaller 0 (.getItem none)
  | .enqueue =>
      match state.callers 0 with
      | .idle => { state with destroyer := .setExited }
      | _ => state.call 0
  | .setExited => { state with mExited := true, destroyer := .removeRef }
  | .removeRef => { state.removeRef with destroyer := .finished }
  | .finished => state

/-- The next step of `sbfQueue_dispatch`. -/
def dispatch (state : QueueLife) : QueueLife :=
  match state.dispatcher with
  | .addRef => { state.addRef with dispatcher := .dequeue }
  | .dequeue =>
      let queue := state.queue.consume
      match queue.consumer with
      | .returned (some (.item item)) => { state with queue := queue, dispatcher := .readCb item }
      | _ => { state with queue := queue }
  | .readCb item =>
      match state.mCb item with
      | some _ => { state with dispatcher := .callback item }
      | none => { state with dispatcher := .put item true }
  | .callback item =>
      { state with ran := state.ran ++ (state.mCb item).toList, dispatcher := .put item false }
  | .put item marker =>
      { state with
        pool := state.pool.put item
        rewritten := false
        dispatcher := .testCb item marker }
  | .testCb item marker =>
      let left := (state.mCb item).isNone
      { state with
        tests := state.tests ++ [(marker, left)]
        stale := state.stale || state.rewritten
        dispatcher := if left then .removeMarker else .dequeue }
  | .removeMarker => { state.removeRef with dispatcher := .removeRef }
  | .removeRef => { state.removeRef with dispatcher := .finished }
  | .finished => state

inductive Action where
  | enqueue (thread cb : Nat)
  | call (thread : Nat)
  | destroy
  | dispatch

def step : Action → QueueLife → QueueLife
  | .enqueue thread cb => enqueue thread cb
  | .call thread => call thread
  | .destroy => destroy
  | .dispatch => dispatch

def run (actions : List Action) (state : QueueLife) : QueueLife :=
  actions.foldl (fun state action => step action state) state

end QueueLife

end Sbf
