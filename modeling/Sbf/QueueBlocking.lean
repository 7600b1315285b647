import Sbf.QueueFifo
import Sbf.TportStreams

set_option autoImplicit false

/-! The queue with the waiting of its dispatch thread and with high resolution timers. The
dispatch thread is thread 0. -/

namespace Sbf

structure HiResTimer where
  mTicks : Nat
  mNext : Nat
  mDestroyed : Bool

/-- What a thread is about to do at the end of `sbfQueueEnqueue`. -/
inductive WakeCheck where
  | idle
  | readBlocking
  | swapWaiting
  | futexWake
deriving DecidableEq

/-- What `sbfQueue_dispatch` is about to do: in a callback, in
`sbfHiResTimer_queueDispatch`, or in `sbfQueueDequeue` from `readBlocking` on. `nextOnce`,
`nextFirst` and `nextSecond` are its calls of `sbfQueueNext`. -/
inductive Dispatcher where
  | callback
  | readTimers
  | enqueueTimer (now address : Nat)
  | insertTimer (now address : Nat)
  | readBlocking
  | nextOnce
  | nextFirst
  | setWaiting
  | nextSecond
  | clearWaiting
  | futexWait
  | asleep
deriving DecidableEq

/-- A queue with its waiting flag and its timers, `mHiResTimers` by `mNext`. `created` is
history: a timer was created since the last call of `sbfQueueDequeue` read
`SBF_QUEUE_BLOCKING`. -/
structure BlockingQueue where
  queue : Queue
  nonblock : Bool
  mWaiting : Nat
  timers : Heap HiResTimer
  fresh : Nat
  mHiResTimers : RbTree Nat Nat
  checks : Nat → WakeCheck
  dispatcher : Dispatcher
  created : Bool

namespace BlockingQueue

/-- `sbfQueue_create`, and a thread that has entered `sbfQueue_dispatch`. -/
def create (nonblock : Bool) (memory : QueueItem → Option QueueItem) : BlockingQueue where
  queue := .create memory
  nonblock := nonblock
  mWaiting := 0
  timers := .empty
  fresh := 0
  mHiResTimers := .empty
  checks _ := .idle
  dispatcher := .readBlocking
  created := false

/-- `SBF_QUEUE_BLOCKING` -/
def blocking (state : BlockingQueue) : Bool :=
  !state.nonblock && state.mHiResTimers.entries.isEmpty

/-- The thread is not in `sbfQueueEnqueue`. -/
def Idle (state : BlockingQueue) (thread : Nat) : Prop :=
  state.queue.producers thread = none ∧ state.checks thread = .idle

instance (state : BlockingQueue) (thread : Nat) : Decidable (state.Idle thread) :=
  inferInstanceAs (Decidable (_ ∧ _))

/-- A thread calls `sbfQueueEnqueue`; the dispatch thread does so from its callbacks. -/
def enqueue (thread address : Nat) (state : BlockingQueue) : BlockingQueue :=
  if state.Idle thread ∧ (thread = 0 → state.dispatcher = .callback) then
    { state with queue := state.queue.enqueue thread address }
  else state

/-- `sbfQueueNext` is called. -/
def callNext (dispatcher : Dispatcher) (state : BlockingQueue) : BlockingQueue :=
  { state with queue := state.queue.callNext, dispatcher := dispatcher }

/-- The next step of a thread in `sbfQueueEnqueue`. -/
def produce (thread : Nat) (state : BlockingQueue) : BlockingQueue :=
  match state.checks thread with
  | .idle =>
      match state.queue.producers thread with
      | none => state
      | some (.link _ _) => { state with
          queue := state.queue.produce thread
          checks := Function.update state.checks thread .readBlocking }
      | some _ => { state with queue := state.queue.produce thread }
  | .readBlocking => { state with
      checks := Function.update state.checks thread (if state.blocking then .swapWaiting else .idle) }
  | .swapWaiting =>
      if state.mWaiting = 1 then { state with
        mWaiting := 0
        checks := Function.update state.checks thread .futexWake }
      else { state with checks := Function.update state.checks thread .idle }
  | .futexWake =>
      let woken := { state with checks := Function.update state.checks thread .idle }
      -- the wait returns 0 and the loop of sbfQueueDequeue starts again
      if state.dispatcher = .asleep then woken.callNext .nextFirst else woken

/-- A step of `sbfHiResTimer_queueDispatch`, at a time that it reads and with an item that
it gets from the pool. -/
def queueDispatch (now item : Nat) (state : BlockingQueue) : BlockingQueue :=
  match state.dispatcher with
  | .readTimers =>
      match state.mHiResTimers.entries with
      | [] => { state with dispatcher := .readBlocking }
      | (mNext, address) :: _ =>
          if now < mNext then { state with dispatcher := .readBlocking }
          else { state with
            mHiResTimers := state.mHiResTimers.erase mNext
            dispatcher := .enqueueTimer now address }
  | .enqueueTimer read address =>
      match state.timers.find address with
      | none => state
      | some timer =>
          if timer.mDestroyed then { state with dispatcher := .readTimers }
          else if state.Idle 0 ∧ state.queue.inside item = false then { state with
            queue := state.queue.enqueue 0 item
            dispatcher := .insertTimer read address }
          else state
  | .insertTimer read address =>
      match state.timers.find address with
      | none => state
      | some timer =>
          if state.Idle 0 then
            let timer := { timer with mNext := (read + timer.mTicks) % UInt64.size }
            { state with
              timers := state.timers.set address timer
              mHiResTimers := state.mHiResTimers.insert timer.mNext address
              dispatcher := .readTimers }
          else state
  | _ => state

/-- A step of the dispatch thread. -/
def dispatch (now item : Nat) (state : BlockingQueue) : BlockingQueue :=
  match state.dispatcher with
  | .callback => if state.Idle 0 then { state with dispatcher := .readTimers } else state
  | .readTimers | .enqueueTimer _ _ | .insertTimer _ _ => state.queueDispatch now item
  | .readBlocking =>
      if state.blocking then { state with created := false }.callNext .nextFirst
      else { state with created := false }.callNext .nextOnce
  | .nextOnce =>
      match state.queue.consumer with
      | .returned (some _) => { state with dispatcher := .callback }
      | .returned none => { state with dispatcher := .readTimers }
      | _ => { state with queue := state.queue.consume }
  | .nextFirst =>
      match state.queue.consumer with
      | .returned (some _) => { state with dispatcher := .callback }
      | .returned none => { state with dispatcher := .setWaiting }
      | _ => { state with queue := state.queue.consume }
  | .setWaiting => { state with mWaiting := 1 }.callNext .nextSecond
  | .nextSecond =>
      match state.queue.consumer with
      | .returned (some _) => { state with dispatcher := .clearWaiting }
      | .returned none => { state with dispatcher := .futexWait }
      | _ => { state with queue := state.queue.consume }
  | .clearWaiting => { state with mWaiting := 0, dispatcher := .callback }
  | .futexWait =>
      -- EWOULDBLOCK when the flag is no longer 1
      if state.mWaiting = 1 then { state with dispatcher := .asleep }
      else state.callNext .nextFirst
  | .asleep => state

/-- A signal ends the wait, which is then called again. -/
def interrupt (state : BlockingQueue) : BlockingQueue :=
  if state.dispatcher = .asleep then { state with dispatcher := .futexWait } else state

/-- `sbfHiResTimer_create`, by any thread at any time. -/
def createTimer (now mTicks : Nat) (state : BlockingQueue) : BlockingQueue :=
  let mNext := (now + mTicks) % UInt64.size
  { state with
    timers := state.timers.set state.fresh ⟨mTicks, mNext, false⟩
    fresh := state.fresh + 1
    mHiResTimers := state.mHiResTimers.insert mNext state.fresh
    created := true }

/-- `sbfHiResTimer_destroy` -/
def destroyTimer (address : Nat) (state : BlockingQueue) : BlockingQueue :=
  match state.timers.find address with
  | none => state
  | some timer =>
      { state with timers := state.timers.set address { timer with mDestroyed := true } }

inductive Action where
  | enqueue (thread address : Nat)
  | produce (thread : Nat)
  | dispatch (now item : Nat)
  | interrupt
  | createTimer (now mTicks : Nat)
  | destroyTimer (address : Nat)

def step : Action → BlockingQueue → BlockingQueue
  | .enqueue thread address => enqueue thread address
  | .produce thread => produce thread
  | .dispatch now item => dispatch now item
  | .interrupt => interrupt
  | .createTimer now mTicks => createTimer now mTicks
  | .destroyTimer address => destroyTimer address

def run (actions : List Action) (state : BlockingQueue) : BlockingQueue :=
  actions.foldl (fun state action => step action state) state

end BlockingQueue

end Sbf
