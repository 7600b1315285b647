import Sbf.MemoryPoolPlaces
import Sbf.SysQueue

set_option autoImplicit false

namespace Sbf

namespace MemoryPool

/-- A thread calls `sbfPool_get` and nobody else is at the pool meanwhile. -/
def getAlone (thread : Nat) (pool : MemoryPool) : MemoryPool :=
  run (.get thread false :: List.replicate 6 (.advance thread)) pool

/-- A thread calls `sbfPool_put` and nobody else is at the pool meanwhile. -/
def putAlone (thread item : Nat) (pool : MemoryPool) : MemoryPool :=
  run (.put thread item :: List.replicate 4 (.advance thread)) pool

/-- Nobody is at the pool. -/
structure Quiet (pool : MemoryPool) : Prop where
  idle : ∀ thread, pool.phases thread = .idle
  unlocked : pool.mLock = none

theorem create_quiet : create.Quiet := ⟨fun _ => rfl, rfl⟩

variable {pool : MemoryPool} {thread item : Nat}

theorem idle_of_apart {phases : Nat → PoolPhase} (mine : phases thread = .idle)
    (others : ∀ other, other ≠ thread → phases other = .idle) (other : Nat) :
    phases other = .idle := by
  by_cases here : other = thread
  · rw [here, mine]
  · exact others other here

/-- One item more is held after a call, and the pool is quiet again. -/
theorem getAlone_held (quiet : pool.Quiet) (thread : Nat) : ∃ item,
    (pool.getAlone thread).held = (thread, item) :: pool.held ∧ (pool.getAlone thread).Quiet := by
  obtain ⟨idle, unlocked⟩ := quiet
  cases available : pool.mAvailable with
  | some item =>
      refine ⟨item, ?_, @idle_of_apart thread _ ?_ fun other apart => ?_, ?_⟩
      · simp [getAlone, run, step, get, advance, nextItem, stand, handOut, idle, unlocked,
          available]
      · simp [getAlone, run, step, get, advance, nextItem, stand, handOut, idle, unlocked,
          available]
      · simp [getAlone, run, step, get, advance, nextItem, stand, handOut, idle, unlocked,
          available, apart]
      · simp [getAlone, run, step, get, advance, nextItem, stand, handOut, idle, unlocked,
          available]
  | none =>
      cases free : pool.mFree with
      | some item =>
          refine ⟨item, ?_, @idle_of_apart thread _ ?_ fun other apart => ?_, ?_⟩
          · simp [getAlone, run, step, get, advance, nextItem, stand, handOut, idle, unlocked,
              available, free]
          · simp [getAlone, run, step, get, advance, nextItem, stand, handOut, idle, unlocked,
              available, free]
          · simp [getAlone, run, step, get, advance, nextItem, stand, handOut, idle, unlocked,
              available, free, apart]
          · simp [getAlone, run, step, get, advance, nextItem, stand, handOut, idle, unlocked,
              available, free]
      | none =>
          refine ⟨pool.news, ?_, @idle_of_apart thread _ ?_ fun other apart => ?_, ?_⟩
          · simp [getAlone, run, step, get, advance, nextItem, stand, handOut, new, idle, unlocked,
              available, free]
          · simp [getAlone, run, step, get, advance, nextItem, stand, handOut, new, idle, unlocked,
              available, free]
          · simp [getAlone, run, step, get, advance, nextItem, stand, handOut, new, idle, unlocked,
              available, free, apart]
          · simp [getAlone, run, step, get, advance, nextItem, stand, handOut, new, idle, unlocked,
              available, free]

theorem putAlone_held (quiet : pool.Quiet) (there : (thread, item) ∈ pool.held) :
    (pool.putAlone thread item).held = pool.held.erase (thread, item) ∧
      (pool.putAlone thread item).Quiet := by
  obtain ⟨idle, unlocked⟩ := quiet
  refine ⟨?_, @idle_of_apart thread _ ?_ fun other apart => ?_, ?_⟩
  · simp [putAlone, run, step, put, advance, putItem, stand, idle, there]
  · simp [putAlone, run, step, put, advance, putItem, stand, idle, there]
  · simp [putAlone, run, step, put, advance, putItem, stand, idle, there, apart]
  · simp [putAlone, run, step, put, advance, putItem, stand, idle, there, unlocked]

end MemoryPool

/-- `struct sbfDequeImpl` with its items, which the pool numbers: their links and what they
point to, where `none` is a null pointer. -/
structure Deque (π : Type) where
  mPool : MemoryPool
  mList : LinkRing Nat
  mPointer : Nat → Option π

namespace Deque

variable {π : Type}

/-- `sbfDeque_create`, whatever the memory of its items holds. -/
def create (list : LinkRing Nat) (pointer : Nat → Option π) : Deque π :=
  ⟨.create, SysQueue.init list, pointer⟩

/-- An item from the pool, pointing to `vp`, is put on the list. -/
def push (insert : Nat → LinkRing Nat → LinkRing Nat) (vp : Option π) (dq : Deque π) :
    Except Fault (Deque π) :=
  let pool := dq.mPool.getAlone 0
  match pool.held.head? with
  | none => .error .null
  | some (_, dqe) => .ok ⟨pool, insert dqe dq.mList, Function.update dq.mPointer dqe vp⟩

/-- `sbfDeque_pushBack` -/
def pushBack (vp : Option π) (dq : Deque π) : Except Fault (Deque π) :=
  push SysQueue.insertTail vp dq

/-- `sbfDeque_pushFront` -/
def pushFront (vp : Option π) (dq : Deque π) : Except Fault (Deque π) :=
  push SysQueue.insertHead vp dq

/-- An item is taken off the list and given back; without one the result is null. -/
def pop (end_ : LinkRing Nat → Option Nat) (dq : Deque π) : Deque π × Option π :=
  match end_ dq.mList with
  | none => (dq, none)
  | some dqe =>
      (⟨dq.mPool.putAlone 0 dqe, SysQueue.remove dqe dq.mList, dq.mPointer⟩, dq.mPointer dqe)

/-- `sbfDeque_popBack` -/
def popBack (dq : Deque π) : Deque π × Option π := pop SysQueue.last dq

/-- `sbfDeque_popFront` -/
def popFront (dq : Deque π) : Deque π × Option π := pop SysQueue.first dq

/-- What an item points to, which is not tested for null. -/
def peek (dqe : Option Nat) (dq : Deque π) : Except Fault (Option π) :=
  match dqe with
  | none => .error .null
  | some dqe => .ok (dq.mPointer dqe)

/-- `sbfDeque_back` -/
def back (dq : Deque π) : Except Fault (Option π) := peek (SysQueue.last dq.mList) dq

/-- `sbfDeque_front` -/
def front (dq : Deque π) : Except Fault (Option π) := peek (SysQueue.first dq.mList) dq

inductive Op (π : Type) where
  | pushBack (vp : Option π)
  | pushFront (vp : Option π)
  | popBack
  | popFront
  | back
  | front

/-- One call, with what it returns. -/
def perform (op : Op π) : Step Fault (Deque π) (Option π) := fun dq =>
  match op with
  | .pushBack vp => do .ok (← pushBack vp dq, [])
  | .pushFront vp => do .ok (← pushFront vp dq, [])
  | .popBack => .ok ((popBack dq).1, [(popBack dq).2])
  | .popFront => .ok ((popFront dq).1, [(popFront dq).2])
  | .back => do .ok (dq, [← back dq])
  | .front => do .ok (dq, [← front dq])

/-- The calls on a list of pointers: a pop of an empty one gives null, a look at the end of an
empty one follows a null pointer. -/
def listed (op : Op π) : Step Fault (List (Option π)) (Option π) := fun values =>
  match op with
  | .pushBack vp => .ok (values ++ [vp], [])
  | .pushFront vp => .ok (vp :: values, [])
  | .popBack => .ok (values.dropLast, [values.getLast?.join])
  | .popFront => .ok (values.tail, [values.head?.join])
  | .back => match values.getLast? with
      | none => .error .null
      | some vp => .ok (values, [vp])
  | .front => match values.head? with
      | none => .error .null
      | some vp => .ok (values, [vp])

/-- The items on the list point to the values, and they are the items that the pool has handed
out. -/
structure Represents (dq : Deque π) (values : List (Option π)) : Prop where
  quiet : dq.mPool.Quiet
  sound : ∃ place, dq.mPool.Sound place
  items : ∃ items, dq.mList.Through items ∧ items.map dq.mPointer = values ∧
    dq.mPool.held.Perm (items.map (fun item => (0, item)))

theorem create_represents (list : LinkRing Nat) (pointer : Nat → Option π) :
    (create list pointer).Represents [] :=
  ⟨MemoryPool.create_quiet, ⟨_, MemoryPool.create_sound⟩,
    ⟨[], SysQueue.init_through list, rfl, .refl _⟩⟩

variable {dq : Deque π} {values : List (Option π)}

/-- A new item on the list. -/
theorem push_represents (represents : dq.Represents values) (vp : Option π)
    {insert : Nat → LinkRing Nat → LinkRing Nat} (place : Nat → List Nat → List Nat)
    (inserts : ∀ {queue : LinkRing Nat} {elms elm}, queue.Through elms → elm ∉ elms →
      (insert elm queue).Through (place elm elms))
    (places : ∀ elm elms, (place elm elms).Perm (elm :: elms)) :
    ∃ after items dqe, push insert vp dq = .ok after ∧ after.Represents
      ((place dqe items).map (Function.update dq.mPointer dqe vp)) ∧
      items.map (Function.update dq.mPointer dqe vp) = values := by
  obtain ⟨quiet, ⟨where_, sound⟩, items, through, pointed, held⟩ := represents
  obtain ⟨dqe, taken, quiet'⟩ := MemoryPool.getAlone_held quiet 0
  obtain ⟨where', sound'⟩ := sound.run (.get 0 false :: List.replicate 6 (.advance 0))
  -- nobody has been handed one item twice
  have fresh : dqe ∉ items := by
    intro inside
    have distinct := sound'.distinct
    rw [show MemoryPool.run _ dq.mPool = dq.mPool.getAlone 0 from rfl, taken,
      List.nodup_cons] at distinct
    exact distinct.1 (held.mem_iff.mpr (List.mem_map_of_mem inside))
  have same : items.map (Function.update dq.mPointer dqe vp) = values := by
    rw [← pointed]
    refine List.map_congr_left fun item inside => Function.update_of_ne ?_ _ _
    rintro rfl
    exact fresh inside
  refine ⟨⟨dq.mPool.getAlone 0, insert dqe dq.mList, Function.update dq.mPointer dqe vp⟩, items,
    dqe, ?_, ⟨quiet', ⟨where', sound'⟩, place dqe items, inserts through fresh, rfl, ?_⟩, same⟩
  · simp only [push, taken, List.head?_cons]
  · rw [taken]
    exact (held.cons _).trans ((places dqe items).map (fun item => (0, item))).symm

/-- An item goes off the list. -/
theorem pop_represents (represents : dq.Represents values) (end_ : LinkRing Nat → Option Nat)
    {before after : List Nat} {dqe : Nat} (through : dq.mList.Through (before ++ dqe :: after))
    (held : dq.mPool.held.Perm ((before ++ dqe :: after).map (fun item => (0, item))))
    (here : end_ dq.mList = some dqe) : ∃ popped, pop end_ dq = (popped, dq.mPointer dqe) ∧
      popped.Represents ((before ++ after).map dq.mPointer) := by
  obtain ⟨quiet, ⟨where_, sound⟩, -⟩ := represents
  have ahead : dq.mPool.held.Perm ((0, dqe) :: (before ++ after).map (fun item => (0, item))) := by
    refine held.trans ?_
    rw [List.map_append, List.map_cons, List.map_append]
    exact List.perm_middle
  obtain ⟨given, quiet'⟩ := @MemoryPool.putAlone_held _ 0 dqe quiet
    (ahead.mem_iff.mpr List.mem_cons_self)
  refine ⟨⟨dq.mPool.putAlone 0 dqe, SysQueue.remove dqe dq.mList, dq.mPointer⟩, ?_, quiet',
    sound.run (.put 0 dqe :: List.replicate 4 (.advance 0)), before ++ after,
    SysQueue.remove_through through, rfl, ?_⟩
  · simp only [pop, here]
  · rw [given]
    refine (ahead.erase _).trans ?_
    rw [List.erase_cons_head]

/-- Each call does what it does on the list of pointers, and follows a null pointer where it
does. -/
theorem perform_agrees (represents : dq.Represents values) (op : Op π) :
    Step.Agrees Represents (perform op dq) (listed op values) := by
  obtain ⟨items, through, pointed, held⟩ := id represents.items
  cases op with
  | pushBack vp =>
      obtain ⟨after, items, dqe, ran, done, same⟩ := push_represents represents vp
        (fun elm elms => elms ++ [elm]) SysQueue.insertTail_through
        (fun elm elms => List.perm_append_singleton elm elms)
      refine ⟨after, ?_, ?_⟩
      · simp only [perform, pushBack, ran, bind, Except.bind]
      · rw [List.map_append, same] at done
        simpa using done
  | pushFront vp =>
      obtain ⟨after, items, dqe, ran, done, same⟩ := push_represents represents vp
        (fun elm elms => elm :: elms) SysQueue.insertHead_through
        (fun elm elms => .refl _)
      refine ⟨after, ?_, ?_⟩
      · simp only [perform, pushFront, ran, bind, Except.bind]
      · rw [List.map_cons, same] at done
        simpa using done
  | popBack =>
      rcases List.eq_nil_or_concat items with rfl | ⟨before, dqe, rfl⟩
      · cases pointed
        refine ⟨dq, ?_, represents⟩
        simp only [perform, popBack, pop, SysQueue.last_through through, List.getLast?_nil]
        rfl
      · rw [List.concat_eq_append] at through pointed held
        have last := SysQueue.last_through through
        rw [List.getLast?_concat] at last
        obtain ⟨popped, ran, done⟩ := pop_represents represents SysQueue.last through held last
        rw [← pointed]
        refine ⟨popped, ?_, ?_⟩
        · simp [perform, popBack, ran]
        · simpa using done
  | popFront =>
      cases items with
      | nil =>
          cases pointed
          refine ⟨dq, ?_, represents⟩
          simp only [perform, popFront, pop, SysQueue.first, through.read_head.1, List.head?_nil]
          rfl
      | cons dqe after =>
          obtain ⟨popped, ran, done⟩ := @pop_represents _ _ _ represents
            SysQueue.first [] after dqe through held through.read_head.1
          rw [← pointed]
          refine ⟨popped, ?_, ?_⟩
          · simp [perform, popFront, ran]
          · simpa using done
  | back =>
      have last := SysQueue.last_through through
      rcases List.eq_nil_or_concat items with rfl | ⟨before, dqe, rfl⟩
      · cases pointed
        simp only [perform, back, last]
        rfl
      · rw [List.concat_eq_append] at pointed last
        rw [List.getLast?_concat] at last
        rw [← pointed] at represents ⊢
        rw [listed, List.map_append, List.map_singleton, List.getLast?_concat]
        refine ⟨dq, ?_, by simpa using represents⟩
        simp only [perform, back, last, peek, bind, Except.bind]
  | front =>
      have first := through.read_head.1
      cases items with
      | nil =>
          cases pointed
          simp only [perform, front, SysQueue.first, first]
          rfl
      | cons dqe after =>
          rw [← pointed] at represents ⊢
          refine ⟨dq, ?_, represents⟩
          simp only [perform, front, SysQueue.first, first, List.head?_cons, peek, bind,
            Except.bind]

/-- Whatever calls are made on a new deque, they return what they would on a list of pointers,
and they follow a null pointer exactly where a look is taken at an end of an empty one. In each
state the items on the list are those that the pool has handed out, none of them twice. -/
theorem deque_run_agrees (list : LinkRing Nat) (pointer : Nat → Option π) (ops : List (Op π)) :
    Step.Agrees Represents (Step.all (ops.map perform) (create list pointer))
      (Step.all (ops.map listed) []) :=
  Step.all_agrees (fun represents => perform_agrees represents _) ops
    (create_represents list pointer)

end Deque

end Sbf
