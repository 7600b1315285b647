import Sbf.RbTree
import Sbf.TotalSteps

set_option autoImplicit false

/-! The high resolution timers of a queue. -/

namespace Sbf

/-- `struct sbfHiResTimerImpl`, which is freed when its count comes to zero; `dropped` tells how
often the reference of the tree was dropped. -/
structure HiResTimerImpl where
  mTicks : UInt64
  mNext : UInt64
  mDestroyed : Bool
  mRefCount : Nat
  dropped : Nat
deriving DecidableEq, Repr

/-- The timers of a queue by their numbers, in the order of their creation. The tree is in the
order of `mNext`; `items` are the expirations that wait in the queue. -/
structure HiResTimers where
  mHiResTimers : RbTree Nat Nat
  timers : Nat → Option HiResTimerImpl
  made : Nat
  items : List Nat

namespace HiResTimers

def create : HiResTimers := ⟨.empty, fun _ => none, 0, []⟩

/-- `sbfHiResTimer_create`, where the interval comes to `mTicks` and the clock reads `now`. -/
def createTimer (mTicks now : UInt64) (queue : HiResTimers) : HiResTimers where
  mHiResTimers := queue.mHiResTimers.insert (now + mTicks).toNat queue.made
  timers := Function.update queue.timers queue.made (some ⟨mTicks, now + mTicks, false, 1, 0⟩)
  made := queue.made + 1
  items := queue.items

/-- `sbfHiResTimer_destroy`, which asserts that it is called once. -/
def destroyTimer (number : Nat) (queue : HiResTimers) : HiResTimers :=
  match queue.timers number with
  | none => queue
  | some timer =>
      { queue with
        timers := Function.update queue.timers number (some { timer with mDestroyed := true }) }

/-- The first timer of the tree, when it is due. -/
def due (now : UInt64) (queue : HiResTimers) : Option (Nat × HiResTimerImpl) :=
  match queue.mHiResTimers.min with
  | none => none
  | some (_, number) =>
      match queue.timers number with
      | none => none
      | some timer => if now < timer.mNext then none else some (number, timer)

/-- One round of the loop of `sbfHiResTimer_queueDispatch`. It is the last one when nothing is
due. -/
def dispatch (now : UInt64) (queue : HiResTimers) : HiResTimers :=
  match queue.due now with
  | none => queue
  | some (number, timer) =>
      let tree := queue.mHiResTimers.erase timer.mNext.toNat
      if !timer.mDestroyed then
        { queue with
          mHiResTimers := tree.insert (now + timer.mTicks).toNat number
          timers := Function.update queue.timers number
            (some { timer with
              mNext := now + timer.mTicks, mRefCount := timer.mRefCount + 1 })
          items := queue.items ++ [number] }
      else
        { queue with
          mHiResTimers := tree
          timers := Function.update queue.timers number
            (some { timer with
              mRefCount := timer.mRefCount - 1, dropped := timer.dropped + 1 }) }

/-- `sbfHiResTimerQueueCb`, behind the call of the timer's callback. -/
def queueCb (queue : HiResTimers) : HiResTimers :=
  match queue.items with
  | [] => queue
  | number :: rest =>
      match queue.timers number with
      | none => { queue with items := rest }
      | some timer =>
          { queue with
            timers := Function.update queue.timers number
              (some { timer with mRefCount := timer.mRefCount - 1 })
            items := rest }

inductive Action where
  | create (mTicks now : UInt64)
  | destroy (number : Nat)
  | dispatch (now : UInt64)
  | queueCb
deriving DecidableEq, Repr

def step : Action → HiResTimers → HiResTimers
  | .create mTicks now => createTimer mTicks now
  | .destroy number => destroyTimer number
  | .dispatch now => dispatch now
  | .queueCb => queueCb

/-- A timer is nowhere in the tree. -/
def Out (queue : HiResTimers) (number : Nat) : Prop :=
  ∀ key, queue.mHiResTimers.find key ≠ some number

/-- Timers that are not destroyed are in the tree, and those whose reference was dropped are
not, which happens once. -/
structure Kept (queue : HiResTimers) : Prop where
  running : ∀ number timer, queue.timers number = some timer → timer.mDestroyed = false →
    queue.mHiResTimers.find timer.mNext.toNat = some number
  dropped : ∀ number timer, queue.timers number = some timer → timer.dropped ≠ 0 →
    timer.dropped = 1 ∧ queue.Out number

/-- After a dispatch, the timers that were destroyed and due are gone. -/
def Swept (now : UInt64) (queue : HiResTimers) : Prop :=
  ∀ number timer, queue.timers number = some timer → timer.mDestroyed = true →
    timer.mNext ≤ now → timer.dropped = 1 ∧ queue.Out number

def Works (action : Action) (queue : HiResTimers) : Prop :=
  (step action queue).Kept ∧
    ∀ now, action = .dispatch now → queue.due now = none → (step action queue).Swept now

/-- No timer is put into the tree for a tick at which another one is due. -/
def Clean : Action → HiResTimers → Prop
  | .create mTicks now, queue => queue.mHiResTimers.find (now + mTicks).toNat = none
  | .dispatch now, queue => ∀ number timer, queue.due now = some (number, timer) →
      timer.mDestroyed = false →
      (queue.mHiResTimers.erase timer.mNext.toNat).find (now + timer.mTicks).toNat = none
  | _, _ => True

end HiResTimers

end Sbf
