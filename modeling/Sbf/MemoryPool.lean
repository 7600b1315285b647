import Sbf.PointerList

set_option autoImplicit false

/-! The memory pool, one read or write of the shared memory at a time. Items are known by
their numbers, in the order of their allocation. -/

namespace Sbf

/-- What is left of `sbfPoolNextItem`. -/
inductive PoolNext where
  | lock
  | readAvailable
  | swapFree
  | readNext (item : Nat)
  | setAvailable (item : Nat) (next : Option Nat)
  | unlock (item : Option Nat)
deriving DecidableEq, Repr

/-- What is left of `sbfPool_put`. -/
inductive PoolPut where
  | readFree
  | setNext (free : Option Nat)
  | readNext
  | compareAndSwap (next : Option Nat)
deriving DecidableEq, Repr

/-- Where a thread stands; `zero` tells `sbfPool_getZero` from `sbfPool_get`. -/
inductive PoolPhase where
  | idle
  | nextItem (zero : Bool) (left : PoolNext)
  | new
  | memset (item : Nat)
  | put (item : Nat) (left : PoolPut)
deriving DecidableEq, Repr

/-- The pool with where its threads stand. `news` items have been allocated, and `held` are
the items that callers have, each with the thread that has it. -/
structure MemoryPool where
  mLock : Option Nat
  mAvailable : Option Nat
  mFree : Option Nat
  mNext : Nat → Option Nat
  news : Nat
  held : List (Nat × Nat)
  phases : Nat → PoolPhase

namespace MemoryPool

/-- `sbfPool_create1` -/
def create : MemoryPool where
  mLock := none
  mAvailable := none
  mFree := none
  mNext _ := none
  news := 0
  held := []
  phases _ := .idle

def stand (thread : Nat) (phase : PoolPhase) (pool : MemoryPool) : MemoryPool :=
  { pool with phases := Function.update pool.phases thread phase }

/-- `return item + 1` -/
def handOut (thread item : Nat) (pool : MemoryPool) : MemoryPool :=
  { pool with held := (thread, item) :: pool.held }.stand thread .idle

/-- The next step of `sbfPoolNextItem`. -/
def nextItem (thread : Nat) (zero : Bool) (pool : MemoryPool) : PoolNext → MemoryPool
  | .lock =>
      match pool.mLock with
      | some _ => pool
      | none => { pool with mLock := some thread }.stand thread (.nextItem zero .readAvailable)
  | .readAvailable =>
      match pool.mAvailable with
      | none => pool.stand thread (.nextItem zero .swapFree)
      | some item => pool.stand thread (.nextItem zero (.readNext item))
  | .swapFree =>
      match pool.mFree with
      | none => { pool with mFree := none }.stand thread (.nextItem zero (.unlock none))
      | some item => { pool with mFree := none }.stand thread (.nextItem zero (.readNext item))
  | .readNext item =>
      pool.stand thread (.nextItem zero (.setAvailable item (pool.mNext item)))
  | .setAvailable item next =>
      { pool with mAvailable := next }.stand thread (.nextItem zero (.unlock (some item)))
  | .unlock none => { pool with mLock := none }.stand thread .new
  | .unlock (some item) =>
      if zero then { pool with mLock := none }.stand thread (.memset item)
      else { pool with mLock := none }.handOut thread item

/-- `sbfPoolNew`, `sbfPoolNewZero` -/
def new (thread : Nat) (pool : MemoryPool) : MemoryPool :=
  { pool with mNext := Function.update pool.mNext pool.news none, news := pool.news + 1 }.handOut
    thread pool.news

/-- The next step of `sbfPool_put`. -/
def putItem (thread item : Nat) (pool : MemoryPool) : PoolPut → MemoryPool
  | .readFree => pool.stand thread (.put item (.setNext pool.mFree))
  | .setNext free =>
      { pool with mNext := Function.update pool.mNext item free }.stand thread
        (.put item .readNext)
  | .readNext => pool.stand thread (.put item (.compareAndSwap (pool.mNext item)))
  | .compareAndSwap next =>
      if pool.mFree = next then { pool with mFree := some item }.stand thread .idle
      else pool.stand thread (.put item .readFree)

/-- The next step of the call that the thread is in. -/
def advance (thread : Nat) (pool : MemoryPool) : MemoryPool :=
  match pool.phases thread with
  | .idle => pool
  | .nextItem zero left => pool.nextItem thread zero left
  | .new => pool.new thread
  | .memset item => pool.handOut thread item
  | .put item left => pool.putItem thread item left

/-- A thread calls `sbfPool_get`, or with `zero` `sbfPool_getZero`. -/
def get (thread : Nat) (zero : Bool) (pool : MemoryPool) : MemoryPool :=
  if pool.phases thread = .idle then pool.stand thread (.nextItem zero .lock) else pool

/-- A thread calls `sbfPool_put` with an item that it has. -/
def put (thread item : Nat) (pool : MemoryPool) : MemoryPool :=
  if pool.phases thread = .idle ∧ (thread, item) ∈ pool.held then
    { pool with held := pool.held.erase (thread, item) }.stand thread (.put item .readFree)
  else pool

/-- A thread leaves an item that it has to another. -/
def give (thread receiver item : Nat) (pool : MemoryPool) : MemoryPool :=
  if (thread, item) ∈ pool.held then
    { pool with held := (receiver, item) :: pool.held.erase (thread, item) }
  else pool

inductive Action where
  | get (thread : Nat) (zero : Bool)
  | put (thread item : Nat)
  | give (thread receiver item : Nat)
  | advance (thread : Nat)

def step : Action → MemoryPool → MemoryPool
  | .get thread zero => get thread zero
  | .put thread item => put thread item
  | .give thread receiver item => give thread receiver item
  | .advance thread => advance thread

/-- The steps of all threads in any order. -/
def run (actions : List Action) (pool : MemoryPool) : MemoryPool :=
  actions.foldl (fun pool action => step action pool) pool

end MemoryPool

end Sbf
