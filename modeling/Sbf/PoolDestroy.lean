import Sbf.Deque
import Mathlib.Data.List.Perm.Subperm

set_option autoImplicit false

namespace Sbf

namespace MemoryPool

open PointerList

/-- `sbfPoolDestroyList`: what is freed, one after the other. The memory of a freed item may hold
anything from then on. -/
def destroyList (garbage : Nat → Option Nat) :
    Nat → (Nat → Option Nat) → Option Nat → Except Fault ((Nat → Option Nat) × List Nat)
  | _, mNext, none => .ok (mNext, [])
  | 0, _, some _ => .error .endless
  | fuel + 1, mNext, some item => do
      let next := mNext item
      let (mNext, freed) ← destroyList garbage fuel (Function.update mNext item (garbage item)) next
      .ok (mNext, item :: freed)

/-- `sbfPool_destroy`; `isDefault` tells whether it is one of the default pools, which stay. -/
def destroy (garbage : Nat → Option Nat) (isDefault : Bool) (fuel : Nat) (pool : MemoryPool) :
    Except Fault (List Nat) :=
  if isDefault then .ok []
  else do
    let (mNext, free) ← destroyList garbage fuel pool.mNext pool.mFree
    let (_, available) ← destroyList garbage fuel mNext pool.mAvailable
    .ok (free ++ available)

variable {garbage mNext : Nat → Option Nat} {head : Option Nat} {cells others : List Nat}
  {fuel : Nat} {pool : MemoryPool}

theorem cells_congr {mNext' : Nat → Option Nat} (linked : Cells mNext head cells)
    (same : ∀ item ∈ cells, mNext' item = mNext item) : Cells mNext' head cells := by
  induction linked with
  | nil => exact .nil
  | cons linked ih =>
      refine .cons ?_
      rw [same _ List.mem_cons_self]
      exact ih fun item inside => same item (List.mem_cons_of_mem _ inside)

/-- The list is freed to its end, and only its own items are touched. -/
theorem destroyList_cells (garbage : Nat → Option Nat) (linked : Cells mNext head cells)
    (enough : cells.length ≤ fuel) : ∃ after,
    destroyList garbage fuel mNext head = .ok (after, cells) ∧
      ∀ item, item ∉ cells → after item = mNext item := by
  induction cells generalizing mNext head fuel with
  | nil =>
      cases linked
      exact ⟨mNext, destroyList.eq_1 .., fun _ _ => rfl⟩
  | cons item rest ih =>
      cases fuel with
      | zero => cases enough
      | succ fuel =>
          have fresh := (List.nodup_cons.mp linked.nodup).1
          cases linked with
          | cons linked =>
              have onward : Cells (Function.update mNext item (garbage item)) (mNext item) rest :=
                cells_congr linked fun other inside => Function.update_of_ne
                  (ne_of_mem_of_not_mem inside fresh) _ _
              obtain ⟨after, ran, beside⟩ := ih onward (Nat.le_of_succ_le_succ enough)
              refine ⟨after, ?_, fun other outside => ?_⟩
              · simp only [destroyList, ran, bind, Except.bind]
              · rw [List.mem_cons, not_or] at outside
                rw [beside other outside.2, Function.update_of_ne outside.1]

/-- Destroying a pool that nobody is at frees every item once that nobody has, and no other; what
is left in the memory of a freed item does not matter. -/
theorem destroy_sound {place : Nat → Option Place} (sound : pool.Sound place)
    (idle : ∀ thread, pool.phases thread = .idle) (garbage : Nat → Option Nat)
    (enough : pool.news ≤ fuel) : ∃ freed,
    pool.destroy garbage false fuel = .ok freed ∧ freed.Nodup ∧
      ∀ item, item ∈ freed ↔ item < pool.news ∧ ∀ thread, (thread, item) ∉ pool.held := by
  obtain ⟨free, linkedFree⟩ := sound.free
  obtain ⟨available, linkedAvailable⟩ := sound.available
  have atFree (item : Nat) : item ∈ free ↔ place item = some .free := by
    rw [← sound.there, ← linkedFree.on_iff]
    rfl
  have atAvailable (item : Nat) : item ∈ available ↔ place item = some .available := by
    rw [← sound.there, ← linkedAvailable.on_iff]
    rfl
  have apart (item : Nat) (inside : item ∈ available) : item ∉ free := by
    rw [atFree, (atAvailable item).mp inside]
    simp
  have nodup : (free ++ available).Nodup :=
    List.nodup_append.mpr ⟨linkedFree.nodup, linkedAvailable.nodup,
      fun item here other there same => apart other there (same ▸ here)⟩
  have which (item : Nat) : item ∈ free ++ available ↔
      item < pool.news ∧ ∀ thread, (thread, item) ∉ pool.held := by
    rw [List.mem_append, atFree, atAvailable]
    have allocated : item < pool.news ↔ place item ≠ none := by
      rw [Ne, sound.news, not_le]
    have held (thread : Nat) : (thread, item) ∈ pool.held ↔
        place item = some (.held thread true) := sound.there item (.held thread true)
    simp only [allocated, held]
    constructor
    · rintro (here | here) <;> simp [here]
    · rintro ⟨some_, notHeld⟩
      obtain ⟨where_, here⟩ := Option.ne_none_iff_exists'.mp some_
      have at_ := (sound.there item where_).mpr here
      cases where_ with
      | held thread returned =>
          cases returned with
          | true => exact absurd here (notHeld thread)
          | false => simp [At, Takes, idle thread] at at_
      | available => exact Or.inr here
      | free => exact Or.inl here
      | putting thread => simp [At, idle thread] at at_
  have size : (free ++ available).length ≤ pool.news := by
    have within := (@List.Nodup.subperm _ _ (List.range pool.news) nodup fun item inside =>
      List.mem_range.mpr ((which item).mp inside).1).length_le
    rwa [List.length_range] at within
  rw [List.length_append] at size
  obtain ⟨after, first, beside⟩ := @destroyList_cells _ _ _ fuel garbage linkedFree (by omega)
  obtain ⟨last, second, -⟩ := @destroyList_cells _ _ _ fuel garbage
    (cells_congr linkedAvailable fun item inside => beside item (apart item inside)) (by omega)
  refine ⟨free ++ available, ?_, nodup, which⟩
  simp only [destroy, Bool.false_eq_true, ↓reduceIte, first, second, bind, Except.bind]

/-- Whatever the threads did in whatever order, once all their calls are over `sbfPool_destroy`
frees each item once that no caller has, and no other. -/
theorem pool_run_destroy (actions : List Action) (garbage : Nat → Option Nat)
    (idle : ∀ thread, (run actions create).phases thread = .idle)
    (enough : (run actions create).news ≤ fuel) : ∃ freed,
    (run actions create).destroy garbage false fuel = .ok freed ∧ freed.Nodup ∧
      ∀ item, item ∈ freed ↔ item < (run actions create).news ∧
        ∀ thread, (thread, item) ∉ (run actions create).held := by
  obtain ⟨place, sound⟩ := create_sound.run actions
  exact destroy_sound sound idle garbage enough

/-- Two threads get an item each, and the first gives its own back. -/
def twoGets : List Action :=
  .get 0 false :: List.replicate 6 (.advance 0) ++ (.get 1 false :: List.replicate 6 (.advance 1)) ++
    (.put 0 0 :: List.replicate 4 (.advance 0))

theorem pool_run_destroy_twoGets : ∃ freed,
    (run twoGets create).destroy (fun _ => some 7) false 2 = .ok freed ∧ freed.Nodup ∧
      ∀ item, item ∈ freed ↔ item < (run twoGets create).news ∧
        ∀ thread, (thread, item) ∉ (run twoGets create).held := by
  obtain ⟨_, -, one⟩ := getAlone_held create_quiet 0
  obtain ⟨_, -, two⟩ := getAlone_held one 1
  have quiet := (@putAlone_held _ 0 0 two (by decide)).2
  exact pool_run_destroy twoGets (fun _ => some 7) quiet.idle (by decide)

end MemoryPool

namespace Deque

variable {π : Type}

/-- `sbfDeque_destroy`: what it frees of the items. -/
def destroy (garbage : Nat → Option Nat) (fuel : Nat) (dq : Deque π) : Except Fault (List Nat) :=
  dq.mPool.destroy garbage false fuel

/-- `sbfDeque_destroy` frees once each item that the pool ever made and that is not on the list, and
no other; on the list is one for each pointer that was not popped. -/
theorem deque_run_destroy (list : LinkRing Nat) (pointer : Nat → Option π) (ops : List (Op π))
    {values out : List (Option π)} (ran : Step.all (ops.map listed) [] = .ok (values, out))
    (garbage : Nat → Option Nat) : ∃ dq items freed,
    Step.all (ops.map perform) (create list pointer) = .ok (dq, out) ∧
      dq.mList.Through items ∧ items.map dq.mPointer = values ∧
      dq.destroy garbage dq.mPool.news = .ok freed ∧ freed.Nodup ∧
      (∀ item, item ∈ freed ↔ item < dq.mPool.news ∧ item ∉ items) ∧
      freed.length + values.length = dq.mPool.news := by
  have agrees := Step.all_agrees (fun represents => perform_agrees represents _) ops
    (create_represents list pointer)
  rw [ran] at agrees
  obtain ⟨dq, done, quiet, ⟨place, sound⟩, items, through, pointed, held⟩ := agrees
  obtain ⟨freed, destroyed, nodup, which⟩ :=
    MemoryPool.destroy_sound sound quiet.idle garbage (Nat.le_refl _)
  have onList (item : Nat) : item ∈ items ↔ ∃ thread, (thread, item) ∈ dq.mPool.held := by
    simp [held.mem_iff]
  have left (item : Nat) : item ∈ freed ↔ item < dq.mPool.news ∧ item ∉ items := by
    rw [which, onList, not_exists]
  refine ⟨dq, items, freed, done, through, pointed, destroyed, nodup, left, ?_⟩
  have made (item : Nat) (inside : item ∈ items) : item < dq.mPool.news := by
    obtain ⟨thread, there⟩ := (onList item).mp inside
    by_contra beyond
    have nowhere := (sound.news item).mpr (not_lt.mp beyond)
    cases ((sound.there item (.held thread true)).mp there).symm.trans nowhere
  -- the items are those freed and those on the list, in some order
  have all : (freed ++ items).Perm (List.range dq.mPool.news) := by
    refine (List.perm_ext_iff_of_nodup (List.nodup_append.mpr ⟨nodup, through.nodup, ?_⟩)
      List.nodup_range).mpr fun item => ?_
    · rintro item here other there rfl
      exact ((left item).mp here).2 there
    · rw [List.mem_append, left, List.mem_range]
      by_cases inside : item ∈ items
      · simp [inside, made item inside]
      · simp [inside]
  have size := all.length_eq
  rw [List.length_append, List.length_range] at size
  rw [← pointed, List.length_map]
  exact size

theorem deque_run_destroy_left : ∃ (dq : Deque Nat) (items freed : List Nat),
    Step.all (([.pushBack (some 1), .pushFront (some 2), .popBack, .pushBack none] :
      List (Op Nat)).map perform) (create ⟨fun _ => none, fun _ => none⟩ (fun _ => none)) =
        .ok (dq, [some 1]) ∧
      dq.mList.Through items ∧ items.map dq.mPointer = [some 2, none] ∧
      dq.destroy (fun _ => some 7) dq.mPool.news = .ok freed ∧ freed.Nodup ∧
      (∀ item, item ∈ freed ↔ item < dq.mPool.news ∧ item ∉ items) ∧
      freed.length + 2 = dq.mPool.news :=
  @deque_run_destroy Nat ⟨fun _ => none, fun _ => none⟩ (fun _ => none)
    [.pushBack (some 1), .pushFront (some 2), .popBack, .pushBack none]
    [some 2, none] _ rfl (fun _ => some 7)

end Deque

end Sbf
