import Sbf.MemoryPool

set_option autoImplicit false

/-! Where each item of the pool is, over all orders of the steps of all threads. -/

namespace Sbf

/-- A place at which an item can be. A caller holds an item from when its `sbfPool_get` has
taken it off the lists; `returned` tells whether that call is over. -/
inductive Place where
  | held (thread : Nat) (returned : Bool)
  | available
  | free
  | putting (thread : Nat)
deriving DecidableEq, Repr

namespace MemoryPool

open PointerList

/-- What a thread has in the middle of `sbfPool_get`: the list that it has swapped out, and
then the item that it is to return. -/
def Takes (pool : MemoryPool) (item : Nat) : PoolPhase → Prop
  | .nextItem _ (.readNext first) | .nextItem _ (.setAvailable first _) =>
      pool.mAvailable = none ∧ On pool.mNext (some first) item
  | .nextItem _ (.unlock taken) => taken = some item
  | .memset taken => taken = item
  | _ => False

def At (pool : MemoryPool) (item : Nat) : Place → Prop
  | .held thread true => (thread, item) ∈ pool.held
  | .held thread false => pool.Takes item (pool.phases thread)
  | .available => On pool.mNext pool.mAvailable item
  | .free => On pool.mNext pool.mFree item
  | .putting thread => ∃ left, pool.phases thread = .put item left

/-- The phases in which a thread has the lock. -/
def Inside : PoolPhase → Prop
  | .nextItem _ .lock => False
  | .nextItem _ _ => True
  | _ => False

/-- What a thread knows of the items that it has read. -/
def Knows (pool : MemoryPool) : PoolPhase → Prop
  | .nextItem _ .swapFree => pool.mAvailable = none
  | .nextItem _ (.readNext item) =>
      pool.mAvailable = some item ∨ pool.mAvailable = none ∧ Ends pool.mNext (some item)
  | .nextItem _ (.setAvailable item next) =>
      next = pool.mNext item ∧
        (pool.mAvailable = some item ∨ pool.mAvailable = none ∧ Ends pool.mNext (some item))
  | .put item (.compareAndSwap next) => next = pool.mNext item
  | _ => True

/-- Every item has the one place that `place` tells. -/
structure Sound (pool : MemoryPool) (place : Nat → Option Place) : Prop where
  there : ∀ item where_, pool.At item where_ ↔ place item = some where_
  news : ∀ item, place item = none ↔ pool.news ≤ item
  distinct : pool.held.Nodup
  available : Ends pool.mNext pool.mAvailable
  free : Ends pool.mNext pool.mFree
  lock : ∀ thread, Inside (pool.phases thread) → pool.mLock = some thread
  knows : ∀ thread, pool.Knows (pool.phases thread)

theorem create_sound : create.Sound (fun _ => none) where
  there item where_ := by
    cases where_ with
    | held thread returned => cases returned <;> simp [At, create, Takes]
    | _ => simp [At, create]
  news item := by simp [create]
  distinct := List.nodup_nil
  available := ends_none
  free := ends_none
  lock _ inside := absurd inside id
  knows _ := trivial

/-- Outside the lock a thread has nothing on a list. -/
theorem takes_outside {pool after : MemoryPool} {item : Nat} {phase : PoolPhase}
    (outside : ¬ Inside phase) : after.Takes item phase ↔ pool.Takes item phase := by
  cases phase with
  | nextItem zero left =>
      cases left with
      | lock => exact Iff.rfl
      | _ => exact absurd trivial outside
  | _ => exact Iff.rfl

/-- What a step of `thread` leaves of the other threads. -/
structure Beside (thread : Nat) (pool after : MemoryPool) : Prop where
  phases : ∀ other, other ≠ thread → after.phases other = pool.phases other
  held : ∀ other item, other ≠ thread → ((other, item) ∈ after.held ↔ (other, item) ∈ pool.held)
  takes : ∀ other item, other ≠ thread →
    (after.Takes item (pool.phases other) ↔ pool.Takes item (pool.phases other))
  knows : ∀ other, other ≠ thread → after.Knows (pool.phases other)

section Steps

variable {pool after : MemoryPool} {place place' : Nat → Option Place} {thread item : Nat}

theorem Sound.outside (sound : pool.Sound place) (locked : pool.mLock = some thread) {other : Nat}
    (apart : other ≠ thread) : ¬ Inside (pool.phases other) := by
  intro inside
  have same := (sound.lock other inside).symm.trans locked
  exact apart (Option.some.inj same)

theorem Sound.knows_outside (sound : pool.Sound place) (next : after.mNext = pool.mNext)
    {other : Nat} (outside : ¬ Inside (pool.phases other)) : after.Knows (pool.phases other) := by
  have known := sound.knows other
  cases stands : pool.phases other with
  | nextItem zero left =>
      rw [stands] at outside
      cases left with
      | lock => trivial
      | _ => exact absurd trivial outside
  | put item left =>
      rw [stands] at known
      cases left with
      | compareAndSwap next' => exact known.trans (congrFun next item).symm
      | _ => trivial
  | _ => trivial

/-- Under the lock the list of available items may change. -/
theorem Sound.beside_locked (sound : pool.Sound place) (locked : pool.mLock = some thread)
    (next : after.mNext = pool.mNext)
    (phases : ∀ other, other ≠ thread → after.phases other = pool.phases other)
    (held : ∀ other item, other ≠ thread →
      ((other, item) ∈ after.held ↔ (other, item) ∈ pool.held)) : Beside thread pool after where
  phases := phases
  held := held
  takes _ _ apart := takes_outside (sound.outside locked apart)
  knows _ apart := sound.knows_outside next (sound.outside locked apart)

/-- A step that writes neither a list nor an item. -/
theorem Sound.beside_same (sound : pool.Sound place) (next : after.mNext = pool.mNext)
    (available : after.mAvailable = pool.mAvailable)
    (phases : ∀ other, other ≠ thread → after.phases other = pool.phases other)
    (held : ∀ other item, other ≠ thread →
      ((other, item) ∈ after.held ↔ (other, item) ∈ pool.held)) : Beside thread pool after where
  phases := phases
  held := held
  takes other item _ := by
    unfold Takes
    rw [next, available]
  knows other _ := by
    have known := sound.knows other
    unfold Knows at known ⊢
    rwa [next, available]

section Write

variable (sound : pool.Sound place)
  (own : ∀ where_, place item = some where_ → where_ = .putting thread)
include sound own

/-- What a thread may write is on no list, and nobody else has it. -/
theorem Sound.off (where_ : Place) (apart : where_ ≠ .putting thread) : ¬ pool.At item where_ :=
  fun there => apart (own where_ ((sound.there item where_).mp there))

/-- A list that another thread has begun to take survives the write. -/
theorem Sound.first_update {first : Nat} {where_ : Place} (apart : where_ ≠ .putting thread)
    (takes : ∀ item, pool.mAvailable = none → On pool.mNext (some first) item →
      pool.At item where_)
    (fits : pool.mAvailable = some first ∨ pool.mAvailable = none ∧ Ends pool.mNext (some first))
    (value : Option Nat) : first ≠ item ∧
      (pool.mAvailable = some first ∨
        pool.mAvailable = none ∧ Ends (Function.update pool.mNext item value) (some first)) ∧
      ∀ other, (pool.mAvailable = none ∧
          On (Function.update pool.mNext item value) (some first) other ↔
        pool.mAvailable = none ∧ On pool.mNext (some first) other) := by
  rcases fits with some_ | ⟨empty, ends⟩
  · refine ⟨?_, Or.inl some_, fun other => by simp [some_]⟩
    rintro rfl
    have on : On pool.mNext pool.mAvailable first := by
      rw [some_]
      exact on_head (some_ ▸ sound.available)
    have off : ¬ pool.At first .available := sound.off own _ (by simp)
    exact off on
  · have off : ¬ On pool.mNext (some first) item :=
      fun on => sound.off own _ apart (takes _ empty on)
    refine ⟨?_, Or.inr ⟨empty, ends.update off value⟩, fun other => ?_⟩
    · rintro rfl
      exact off (on_head ends)
    · rw [on_update ends off]

/-- A thread writes an item that only it can reach. -/
theorem Sound.beside_write {value : Option Nat}
    (next : after.mNext = Function.update pool.mNext item value)
    (available : after.mAvailable = pool.mAvailable)
    (phases : ∀ other, other ≠ thread → after.phases other = pool.phases other)
    (held : ∀ other item, other ≠ thread →
      ((other, item) ∈ after.held ↔ (other, item) ∈ pool.held)) : Beside thread pool after where
  phases := phases
  held := held
  takes other item' _ := by
    have takes : ∀ item, pool.Takes item (pool.phases other) → pool.At item (.held other false) :=
      fun _ => id
    have known := sound.knows other
    cases stands : pool.phases other with
    | nextItem zero left =>
        rw [stands] at takes known
        cases left with
        | readNext first =>
            simp only [Takes, next, available]
            exact (sound.first_update own (by simp) (fun item empty on => takes item ⟨empty, on⟩)
              known value).2.2 item'
        | setAvailable first _ =>
            simp only [Takes, next, available]
            exact (sound.first_update own (by simp) (fun item empty on => takes item ⟨empty, on⟩)
              known.2 value).2.2 item'
        | _ => exact Iff.rfl
    | _ => exact Iff.rfl
  knows other apart := by
    have takes : ∀ item, pool.Takes item (pool.phases other) → pool.At item (.held other false) :=
      fun _ => id
    have putting : ∀ item left, pool.phases other = .put item left →
        pool.At item (.putting other) :=
      fun _ left stands => ⟨left, stands⟩
    have known := sound.knows other
    cases stands : pool.phases other with
    | nextItem zero left =>
        rw [stands] at takes known
        cases left with
        | swapFree => exact available.trans known
        | readNext first =>
            simp only [Knows, next, available]
            exact (sound.first_update own (by simp) (fun item empty on => takes item ⟨empty, on⟩)
              known value).2.1
        | setAvailable first next' =>
            simp only [Knows, next, available]
            obtain ⟨ne, fits, _⟩ := sound.first_update own (by simp)
              (fun item empty on => takes item ⟨empty, on⟩) known.2 value
            exact ⟨by rw [Function.update_of_ne ne]; exact known.1, fits⟩
        | _ => trivial
    | put item' left =>
        rw [stands] at known
        cases left with
        | compareAndSwap next' =>
            have ne : item' ≠ item := by
              rintro rfl
              exact sound.off own _ (by simpa using apart) (putting _ _ stands)
            simp only [Knows, next]
            rw [Function.update_of_ne ne]
            exact known
        | _ => trivial
    | _ => trivial

end Write

/-- Where the items are that a thread has to do with. -/
theorem Sound.places (sound : pool.Sound place) (thread : Nat) :
    (∀ item, pool.Takes item (pool.phases thread) ↔ place item = some (.held thread false)) ∧
    (∀ item, (thread, item) ∈ pool.held ↔ place item = some (.held thread true)) ∧
    (∀ item, On pool.mNext pool.mAvailable item ↔ place item = some .available) ∧
    (∀ item, On pool.mNext pool.mFree item ↔ place item = some .free) ∧
    (∀ item, (∃ left, pool.phases thread = .put item left) ↔
      place item = some (.putting thread)) :=
  ⟨fun item => sound.there item (.held thread false),
    fun item => sound.there item (.held thread true), fun item => sound.there item .available,
    fun item => sound.there item .free, fun item => sound.there item (.putting thread)⟩

/-- The places after a step of `thread` that moves only what it has to do with. -/
theorem Sound.moved (sound : pool.Sound place) (beside : Beside thread pool after)
    (others : ∀ other item, other ≠ thread →
      (∀ returned, place' item = some (.held other returned) ↔
        place item = some (.held other returned)) ∧
      (place' item = some (.putting other) ↔ place item = some (.putting other)))
    (held : ∀ item returned, after.At item (.held thread returned) ↔
      place' item = some (.held thread returned))
    (available : ∀ item, after.At item .available ↔ place' item = some .available)
    (free : ∀ item, after.At item .free ↔ place' item = some .free)
    (putting : ∀ item, after.At item (.putting thread) ↔ place' item = some (.putting thread))
    (item : Nat) (where_ : Place) : after.At item where_ ↔ place' item = some where_ := by
  cases where_ with
  | available => exact available item
  | free => exact free item
  | held other returned =>
      by_cases apart : other = thread
      · exact apart ▸ held item returned
      · rw [(others other item apart).1, ← sound.there]
        cases returned with
        | true => exact beside.held other item apart
        | false => rw [At, At, beside.phases other apart, beside.takes other item apart]
  | putting other =>
      by_cases apart : other = thread
      · exact apart ▸ putting item
      · rw [(others other item apart).2, ← sound.there, At, At, beside.phases other apart]

theorem Beside.all_know (beside : Beside thread pool after)
    (own : after.Knows (after.phases thread)) (other : Nat) : after.Knows (after.phases other) := by
  by_cases apart : other = thread
  · exact apart ▸ own
  · rw [beside.phases other apart]
    exact beside.knows other apart

section Locks

variable (sound : pool.Sound place) {phase : PoolPhase}
include sound

theorem Sound.lock_kept (inside : Inside phase → pool.mLock = some thread) (other : Nat)
    (stands : Inside (Function.update pool.phases thread phase other)) :
    pool.mLock = some other := by
  by_cases apart : other = thread
  · subst apart
    rw [Function.update_self] at stands
    exact inside stands
  · rw [Function.update_of_ne apart] at stands
    exact sound.lock other stands

theorem Sound.lock_taken (unlocked : pool.mLock = none) (other : Nat)
    (stands : Inside (Function.update pool.phases thread phase other)) :
    some thread = some other := by
  by_cases apart : other = thread
  · rw [apart]
  · rw [Function.update_of_ne apart] at stands
    cases unlocked.symm.trans (sound.lock other stands)

theorem Sound.lock_left {lock : Option Nat} (locked : pool.mLock = some thread)
    (outside : ¬ Inside phase) (other : Nat)
    (stands : Inside (Function.update pool.phases thread phase other)) : lock = some other := by
  by_cases apart : other = thread
  · subst apart
    rw [Function.update_self] at stands
    exact absurd stands outside
  · rw [Function.update_of_ne apart] at stands
    exact absurd stands (sound.outside locked apart)

end Locks

/-- A step after which the thread stands elsewhere and every item where it was. -/
theorem Sound.stand (sound : pool.Sound place) {phase : PoolPhase}
    (next : after.mNext = pool.mNext) (available : after.mAvailable = pool.mAvailable)
    (free : after.mFree = pool.mFree) (news : after.news = pool.news)
    (held : after.held = pool.held)
    (phases : after.phases = Function.update pool.phases thread phase)
    (takes : ∀ item, pool.Takes item phase ↔ pool.Takes item (pool.phases thread))
    (putting : ∀ item, (∃ left, phase = .put item left) ↔
      ∃ left, pool.phases thread = .put item left)
    (knows : pool.Knows phase)
    (lock : ∀ other, Inside (after.phases other) → after.mLock = some other) :
    after.Sound place := by
  have here : after.phases thread = phase := by rw [phases, Function.update_self]
  have beside : Beside thread pool after := sound.beside_same next available
    (fun other apart => by rw [phases, Function.update_of_ne apart])
    (fun other item _ => by rw [held])
  exact
    { there := sound.moved beside (fun _ _ _ => ⟨fun _ => Iff.rfl, Iff.rfl⟩)
        (fun item returned => by
          rw [← sound.there]
          cases returned with
          | true => rw [At, At, held]
          | false =>
              rw [At, At, here, ← takes]
              unfold Takes
              rw [next, available])
        (fun item => by rw [← sound.there, At, At, next, available])
        (fun item => by rw [← sound.there, At, At, next, free])
        (fun item => by rw [← sound.there, At, At, here, putting])
      news := by rw [news]; exact sound.news
      distinct := held ▸ sound.distinct
      available := by rw [next, available]; exact sound.available
      free := by rw [next, free]; exact sound.free
      lock := lock
      knows := beside.all_know (by
        rw [here]
        unfold Knows at knows ⊢
        rwa [next, available]) }

end Steps

section Calls

variable {pool : MemoryPool} {place : Nat → Option Place} {thread item : Nat}
  (sound : pool.Sound place)
include sound

/-- The thread begins a call, or reads without a lasting effect. -/
theorem Sound.stand_same {phase : PoolPhase}
    (takes : ∀ item, pool.Takes item phase ↔ pool.Takes item (pool.phases thread))
    (putting : ∀ item, (∃ left, phase = .put item left) ↔
      ∃ left, pool.phases thread = .put item left)
    (knows : pool.Knows phase) (inside : Inside phase → pool.mLock = some thread) :
    (pool.stand thread phase).Sound place :=
  sound.stand rfl rfl rfl rfl rfl rfl takes putting knows (sound.lock_kept inside)

theorem Sound.get (zero : Bool) : (pool.get thread zero).Sound place := by
  unfold MemoryPool.get
  split
  case isTrue idle =>
      exact sound.stand_same (fun item => by simp [Takes, idle]) (fun item => by simp [idle])
        trivial (fun inside => absurd inside id)
  case isFalse => exact sound

/-- The list of free items, once swapped out, is in the thread's hands. -/
theorem Sound.swap {zero : Bool} {first : Nat}
    (stands : pool.phases thread = .nextItem zero .swapFree) (free : pool.mFree = some first) :
    ∃ place', ({ pool with mFree := none }.stand thread
      (.nextItem zero (.readNext first))).Sound place' := by
  have empty : pool.mAvailable = none := by
    have known := sound.knows thread
    rwa [stands] at known
  have locked : pool.mLock = some thread := sound.lock thread (by rw [stands]; trivial)
  have ends : Ends pool.mNext (some first) := free ▸ sound.free
  have on : ∀ item, On pool.mNext (some first) item ↔ place item = some .free := by
    intro item
    rw [← free, ← sound.there]
    rfl
  have held : ∀ item, (thread, item) ∈ pool.held ↔ place item = some (.held thread true) :=
    fun item => sound.there item (.held thread true)
  have not_taken : ∀ item, place item ≠ some (.held thread false) := by
    intro item
    simp [← sound.there, At, stands, Takes]
  have beside : Beside thread pool ({ pool with mFree := none }.stand thread
      (.nextItem zero (.readNext first))) :=
    sound.beside_locked locked rfl (fun other apart => Function.update_of_ne apart _ _)
      (fun _ _ _ => Iff.rfl)
  refine ⟨fun item => if place item = some .free then some (.held thread false) else place item, ?_⟩
  exact
    { there := sound.moved beside
        (fun other item apart => by
          by_cases was : place item = some .free
          · simp [was, apart.symm]
          · simp [was])
        (fun item returned => by
          cases returned with
          | true =>
              by_cases was : place item = some .free <;>
                simp [At, MemoryPool.stand, was, held]
          | false =>
              by_cases was : place item = some .free <;>
                simp [At, MemoryPool.stand, Takes, empty, on, was, not_taken])
        (fun item => by
          have was : place item ≠ some .available := by simp [← sound.there, At, empty]
          by_cases was' : place item = some .free <;>
            simp [At, MemoryPool.stand, empty, was, was'])
        (fun item => by
          by_cases was : place item = some .free <;> simp [At, MemoryPool.stand, was])
        (fun item => by
          have was : place item ≠ some (.putting thread) := by simp [← sound.there, At, stands]
          by_cases was' : place item = some .free <;>
            simp [At, MemoryPool.stand, was, was'])
      news := fun item => by
        rw [MemoryPool.stand, ← sound.news]
        split
        case isTrue was => simp [was]
        case isFalse => rfl
      distinct := sound.distinct
      available := sound.available
      free := ends_none
      lock := sound.lock_kept fun _ => locked
      knows := beside.all_know (by
        simp only [MemoryPool.stand, Function.update_self]
        exact Or.inr ⟨empty, ends⟩) }

/-- `pool->mAvailable = item->mNext`: the item is the thread's, the rest is available. -/
theorem Sound.setAvailable {zero : Bool} {first : Nat} {next : Option Nat}
    (stands : pool.phases thread = .nextItem zero (.setAvailable first next)) :
    ∃ place', ({ pool with mAvailable := next }.stand thread
      (.nextItem zero (.unlock (some first)))).Sound place' := by
  have locked : pool.mLock = some thread := sound.lock thread (by rw [stands]; trivial)
  have known := sound.knows thread
  rw [stands] at known
  obtain ⟨rfl, fits⟩ := known
  have ends : Ends pool.mNext (some first) := by
    rcases fits with some_ | ⟨_, ends⟩
    · exact some_ ▸ sound.available
    · exact ends
  have once : ¬ On pool.mNext (pool.mNext first) first := not_on_next ends
  have available := fun item => (sound.there item .available).symm
  have taken := fun item => (sound.there item (.held thread false)).symm
  have held := fun item => sound.there item (.held thread true)
  have free := fun item => sound.there item .free
  have putting := fun item => (sound.there item (.putting thread)).symm
  simp only [At, stands, Takes, reduceCtorEq, exists_false, iff_false]
    at available taken held free putting
  -- the list is the one of available items, or the one that was swapped out
  have on : ∀ item, (item = first ∨ On pool.mNext (pool.mNext first) item) ↔
      place item = some .available ∨ place item = some (.held thread false) := by
    intro item
    rw [← on_some ends, available, taken]
    rcases fits with some_ | ⟨empty, _⟩
    · simp [some_]
    · simp [empty]
  have beside : Beside thread pool ({ pool with mAvailable := pool.mNext first }.stand thread
      (.nextItem zero (.unlock (some first)))) :=
    sound.beside_locked locked rfl (fun other apart => Function.update_of_ne apart _ _)
      (fun _ _ _ => Iff.rfl)
  refine ⟨fun item => if item = first then some (.held thread false)
    else if place item = some .available ∨ place item = some (.held thread false)
    then some .available else place item, ?_⟩
  have there : ∀ item where_,
      At ({ pool with mAvailable := pool.mNext first }.stand thread
        (.nextItem zero (.unlock (some first)))) item where_ ↔
      (if item = first then some (.held thread false)
        else if place item = some .available ∨ place item = some (.held thread false)
        then some .available else place item) = some where_ := by
    refine sound.moved beside ?_ ?_ ?_ ?_ ?_
    · intro other item apart
      have here := on item
      split <;> grind
    · intro item returned
      have here := on item
      cases returned <;> simp only [At, MemoryPool.stand, Function.update_self, Takes] <;> grind
    · intro item
      have here := on item
      simp only [At, MemoryPool.stand]
      grind
    · intro item
      have here := on item
      simp only [At, MemoryPool.stand]
      grind
    · intro item
      have here := on item
      simp only [At, MemoryPool.stand, Function.update_self]
      grind
  exact
    { there := there
      news := fun item => by
        have here := on item
        rw [MemoryPool.stand, ← sound.news]
        grind
      distinct := sound.distinct
      available := ends.rest
      free := sound.free
      lock := sound.lock_kept fun _ => locked
      knows := beside.all_know (by simp only [MemoryPool.stand, Function.update_self]; trivial) }

/-- `sbfPoolNextItem` has taken an item, which is now returned. -/
theorem Sound.handOut {lock : Option Nat}
    (taken : ∀ other, pool.Takes other (pool.phases thread) ↔ other = item)
    (not_put : ∀ other left, pool.phases thread ≠ .put other left)
    (lock_ok : ∀ other, Inside (Function.update pool.phases thread .idle other) →
      lock = some other) :
    ({ pool with mLock := lock }.handOut thread item).Sound
      (Function.update place item (some (.held thread true))) := by
  have beside : Beside thread pool ({ pool with mLock := lock }.handOut thread item) :=
    sound.beside_same rfl rfl (fun other apart => Function.update_of_ne apart _ _)
      (fun other item' apart => by simp [MemoryPool.handOut, MemoryPool.stand, apart])
  obtain ⟨taken_, held, available, free, putting⟩ := sound.places thread
  simp only [taken, not_put, exists_false] at taken_ held available free putting
  exact
    { there := sound.moved beside
        (fun other item' apart => by
          simp only [Function.update_apply]
          grind)
        (fun item' returned => by
          cases returned <;>
            simp only [At, MemoryPool.handOut, MemoryPool.stand, Function.update_self, Takes,
              Function.update_apply] <;> grind)
        (fun item' => by
          simp only [At, MemoryPool.handOut, MemoryPool.stand, Function.update_apply]
          grind)
        (fun item' => by
          simp only [At, MemoryPool.handOut, MemoryPool.stand, Function.update_apply]
          grind)
        (fun item' => by
          simp only [At, MemoryPool.handOut, MemoryPool.stand, Function.update_apply]
          grind)
      news := fun item' => by
        simp only [MemoryPool.handOut, MemoryPool.stand, Function.update_apply, ← sound.news]
        grind
      distinct := List.nodup_cons.mpr ⟨by grind, sound.distinct⟩
      available := sound.available
      free := sound.free
      lock := lock_ok
      knows := beside.all_know (by
        simp only [MemoryPool.handOut, MemoryPool.stand, Function.update_self]
        trivial) }

/-- A new item is on no list and nobody has it. -/
theorem Sound.new (stands : pool.phases thread = .new) :
    (pool.new thread).Sound (Function.update place pool.news (some (.held thread true))) := by
  have none_ : place pool.news = none := (sound.news pool.news).mpr (Nat.le_refl _)
  have own : ∀ where_, place pool.news = some where_ → where_ = .putting thread := by
    intro where_ there
    cases none_.symm.trans there
  have beside : Beside thread pool (pool.new thread) :=
    sound.beside_write own rfl rfl (fun other apart => Function.update_of_ne apart _ _)
      (fun other item' apart => by
        simp [MemoryPool.new, MemoryPool.handOut, MemoryPool.stand, apart])
  have off_available : ¬ On pool.mNext pool.mAvailable pool.news :=
    sound.off own .available (by simp)
  have off_free : ¬ On pool.mNext pool.mFree pool.news := sound.off own .free (by simp)
  obtain ⟨taken, held, available, free, putting⟩ := sound.places thread
  simp only [stands, Takes, reduceCtorEq, exists_false] at taken held available free putting
  exact
    { there := sound.moved beside
        (fun other item' apart => by
          simp only [Function.update_apply]
          grind)
        (fun item' returned => by
          cases returned <;>
            simp only [At, MemoryPool.new, MemoryPool.handOut, MemoryPool.stand,
              Function.update_self, Takes, Function.update_apply] <;> grind)
        (fun item' => by
          simp only [At, MemoryPool.new, MemoryPool.handOut, MemoryPool.stand]
          rw [on_update sound.available off_available, Function.update_apply]
          grind)
        (fun item' => by
          simp only [At, MemoryPool.new, MemoryPool.handOut, MemoryPool.stand]
          rw [on_update sound.free off_free, Function.update_apply]
          grind)
        (fun item' => by
          simp only [At, MemoryPool.new, MemoryPool.handOut, MemoryPool.stand,
            Function.update_self, Function.update_apply]
          grind)
      news := fun item' => by
        have was := sound.news item'
        simp only [MemoryPool.new, MemoryPool.handOut, MemoryPool.stand, Function.update_apply]
        split
        case isTrue same => simp [same]
        case isFalse other => rw [was]; omega
      distinct := List.nodup_cons.mpr ⟨by grind, sound.distinct⟩
      available := sound.available.update off_available _
      free := sound.free.update off_free _
      lock := sound.lock_kept fun inside => absurd inside id
      knows := beside.all_know (by
        simp only [MemoryPool.new, MemoryPool.handOut, MemoryPool.stand, Function.update_self]
        trivial) }

/-- The caller's item is in the middle of `sbfPool_put`. -/
theorem Sound.put : ∃ place', (pool.put thread item).Sound place' := by
  unfold MemoryPool.put
  split
  case isFalse => exact ⟨place, sound⟩
  case isTrue calls =>
    obtain ⟨idle, has⟩ := calls
    have beside : Beside thread pool ({ pool with held := pool.held.erase (thread, item) }.stand
        thread (.put item .readFree)) :=
      sound.beside_same rfl rfl (fun other apart => Function.update_of_ne apart _ _)
        (fun other item' apart => by
          rw [MemoryPool.stand, List.mem_erase_of_ne]
          simp [apart])
    have erased : ∀ entry, entry ∈ pool.held.erase (thread, item) ↔
        entry ≠ (thread, item) ∧ entry ∈ pool.held := fun _ => sound.distinct.mem_erase_iff
    obtain ⟨taken, held, available, free, putting⟩ := sound.places thread
    simp only [idle, Takes, reduceCtorEq, exists_false] at taken held available free putting
    refine ⟨Function.update place item (some (.putting thread)), ?_⟩
    exact
      { there := sound.moved beside
          (fun other item' apart => by
            simp only [Function.update_apply]
            grind)
          (fun item' returned => by
            cases returned <;>
              simp only [At, MemoryPool.stand, Function.update_self, Takes,
                Function.update_apply, erased] <;> grind)
          (fun item' => by
            simp only [At, MemoryPool.stand, Function.update_apply]
            grind)
          (fun item' => by
            simp only [At, MemoryPool.stand, Function.update_apply]
            grind)
          (fun item' => by
            simp only [At, MemoryPool.stand, Function.update_self, Function.update_apply]
            grind)
        news := fun item' => by
          have was := sound.news item'
          simp only [MemoryPool.stand, Function.update_apply]
          grind
        distinct := sound.distinct.erase _
        available := sound.available
        free := sound.free
        lock := sound.lock_kept fun inside => absurd inside id
        knows := beside.all_know (by
          simp only [MemoryPool.stand, Function.update_self]
          trivial) }

/-- `item->mNext = pool->mFree` -/
theorem Sound.setNext {value : Option Nat}
    (stands : pool.phases thread = .put item (.setNext value)) :
    ({ pool with mNext := Function.update pool.mNext item value }.stand thread
      (.put item .readNext)).Sound place := by
  have puts : place item = some (.putting thread) :=
    (sound.there item (.putting thread)).mp ⟨_, stands⟩
  have own : ∀ where_, place item = some where_ → where_ = .putting thread :=
    fun _ there => (Option.some.inj (puts.symm.trans there)).symm
  have beside : Beside thread pool
      ({ pool with mNext := Function.update pool.mNext item value }.stand thread
        (.put item .readNext)) :=
    sound.beside_write own rfl rfl (fun other apart => Function.update_of_ne apart _ _)
      (fun _ _ _ => Iff.rfl)
  have off_available : ¬ On pool.mNext pool.mAvailable item := sound.off own .available (by simp)
  have off_free : ¬ On pool.mNext pool.mFree item := sound.off own .free (by simp)
  exact
    { there := sound.moved beside (fun _ _ _ => ⟨fun _ => Iff.rfl, Iff.rfl⟩)
        (fun item' returned => by
          rw [← sound.there]
          cases returned <;> simp [At, MemoryPool.stand, Takes, stands])
        (fun item' => by
          rw [← sound.there]
          exact on_update sound.available off_available value)
        (fun item' => by
          rw [← sound.there]
          exact on_update sound.free off_free value)
        (fun item' => by
          rw [← sound.there]
          simp [At, MemoryPool.stand, stands])
      news := sound.news
      distinct := sound.distinct
      available := sound.available.update off_available _
      free := sound.free.update off_free _
      lock := sound.lock_kept fun inside => absurd inside id
      knows := beside.all_know (by
        simp only [MemoryPool.stand, Function.update_self]
        trivial) }

/-- The exchange succeeds only on the head that the item is linked to. -/
theorem Sound.exchange {next : Option Nat}
    (stands : pool.phases thread = .put item (.compareAndSwap next)) (same : pool.mFree = next) :
    ({ pool with mFree := some item }.stand thread .idle).Sound
      (Function.update place item (some .free)) := by
  have linked : next = pool.mNext item := by
    have known := sound.knows thread
    rwa [stands] at known
  have ends : Ends pool.mNext (some item) := by
    refine Ends.cons ?_
    rw [← linked, ← same]
    exact sound.free
  have pushed : ∀ other, On pool.mNext (some item) other ↔
      other = item ∨ On pool.mNext pool.mFree other := by
    intro other
    rw [on_some ends, ← linked, ← same]
  have beside : Beside thread pool ({ pool with mFree := some item }.stand thread .idle) :=
    sound.beside_same rfl rfl (fun other apart => Function.update_of_ne apart _ _)
      (fun _ _ _ => Iff.rfl)
  obtain ⟨taken, held, available, free, putting⟩ := sound.places thread
  simp only [stands, Takes, PoolPhase.put.injEq] at taken held available free putting
  exact
    { there := sound.moved beside
        (fun other item' apart => by
          simp only [Function.update_apply]
          grind)
        (fun item' returned => by
          cases returned <;>
            simp only [At, MemoryPool.stand, Function.update_self, Takes,
              Function.update_apply] <;> grind)
        (fun item' => by
          simp only [At, MemoryPool.stand, Function.update_apply]
          grind)
        (fun item' => by
          simp only [At, MemoryPool.stand, Function.update_apply, pushed]
          grind)
        (fun item' => by
          simp only [At, MemoryPool.stand, Function.update_self, Function.update_apply]
          grind)
      news := fun item' => by
        have was := sound.news item'
        simp only [MemoryPool.stand, Function.update_apply]
        grind
      distinct := sound.distinct
      available := sound.available
      free := ends
      lock := sound.lock_kept fun inside => absurd inside id
      knows := beside.all_know (by
        simp only [MemoryPool.stand, Function.update_self]
        trivial) }

/-- A caller leaves its item to another. -/
theorem Sound.give (receiver : Nat) : ∃ place', (pool.give thread receiver item).Sound place' := by
  unfold MemoryPool.give
  split
  case isFalse => exact ⟨place, sound⟩
  case isTrue has =>
    have erased : ∀ entry, entry ∈ pool.held.erase (thread, item) ↔
        entry ≠ (thread, item) ∧ entry ∈ pool.held := fun _ => sound.distinct.mem_erase_iff
    have was : place item = some (.held thread true) :=
      (sound.there item (.held thread true)).mp has
    have held : ∀ other item, (other, item) ∈ pool.held ↔ place item = some (.held other true) :=
      fun other item => sound.there item (.held other true)
    refine ⟨Function.update place item (some (.held receiver true)), ?_⟩
    exact
      { there := fun item' where_ => by
          have there := sound.there item' where_
          by_cases same : item' = item
          · subst same
            rw [Function.update_self]
            rw [was] at there
            cases where_ with
            | held other returned =>
                cases returned with
                | true => simp only [At, List.mem_cons, erased, held]; grind
                | false => exact there.trans (by simp)
            | _ => exact there.trans (by simp)
          · rw [Function.update_of_ne same, ← there]
            cases where_ with
            | held other returned =>
                cases returned with
                | true => simp only [At, List.mem_cons, erased]; grind
                | false => exact Iff.rfl
            | _ => exact Iff.rfl
        news := fun item' => by
          have was := sound.news item'
          simp only [Function.update_apply]
          grind
        distinct := by
          refine List.nodup_cons.mpr ⟨?_, sound.distinct.erase _⟩
          rw [erased, held]
          grind
        available := sound.available
        free := sound.free
        lock := sound.lock
        knows := sound.knows }

/-- Every step of `sbfPoolNextItem` leaves each item in one place. -/
theorem Sound.nextItem {zero : Bool} {left : PoolNext}
    (stands : pool.phases thread = .nextItem zero left) :
    ∃ place', (pool.nextItem thread zero left).Sound place' := by
  have known := sound.knows thread
  rw [stands] at known
  cases left with
  | lock =>
      simp only [MemoryPool.nextItem]
      split
      · exact ⟨place, sound⟩
      · rename_i unlocked
        exact ⟨place, sound.stand rfl rfl rfl rfl rfl rfl (fun _ => by simp [Takes, stands])
          (fun _ => by simp [stands]) trivial (sound.lock_taken unlocked)⟩
  | readAvailable =>
      have locked : pool.mLock = some thread := sound.lock thread (by rw [stands]; trivial)
      simp only [MemoryPool.nextItem]
      split
      · rename_i empty
        exact ⟨place, sound.stand_same (fun _ => by simp [Takes, stands])
          (fun _ => by simp [stands]) empty (fun _ => locked)⟩
      · rename_i first available
        exact ⟨place, sound.stand_same (fun _ => by simp [Takes, stands, available])
          (fun _ => by simp [stands]) (Or.inl available) (fun _ => locked)⟩
  | swapFree =>
      have locked : pool.mLock = some thread := sound.lock thread (by rw [stands]; trivial)
      simp only [MemoryPool.nextItem]
      split
      · rename_i free
        exact ⟨place, sound.stand rfl rfl free.symm rfl rfl rfl (fun _ => by simp [Takes, stands])
          (fun _ => by simp [stands]) trivial (sound.lock_kept fun _ => locked)⟩
      · rename_i first free
        exact sound.swap stands free
  | readNext first =>
      have locked : pool.mLock = some thread := sound.lock thread (by rw [stands]; trivial)
      exact ⟨place, sound.stand_same (fun _ => by simp [Takes, stands])
        (fun _ => by simp [stands]) ⟨rfl, known⟩ (fun _ => locked)⟩
  | setAvailable first next => exact sound.setAvailable stands
  | unlock taken =>
      have locked : pool.mLock = some thread := sound.lock thread (by rw [stands]; trivial)
      cases taken with
      | none =>
          exact ⟨place, sound.stand rfl rfl rfl rfl rfl rfl (fun _ => by simp [Takes, stands])
            (fun _ => by simp [stands]) trivial
            (sound.lock_left locked (show ¬ Inside .new from id))⟩
      | some item =>
          simp only [MemoryPool.nextItem]
          split
          · exact ⟨place, sound.stand rfl rfl rfl rfl rfl rfl (fun _ => by simp [Takes, stands])
              (fun _ => by simp [stands]) trivial
              (sound.lock_left locked (show ¬ Inside (.memset item) from id))⟩
          · exact ⟨_, sound.handOut (fun other => by simp [Takes, stands, eq_comm])
              (fun _ _ => by simp [stands])
              (sound.lock_left locked (show ¬ Inside .idle from id))⟩

/-- Every step of `sbfPool_put` leaves each item in one place. -/
theorem Sound.putItem {left : PoolPut} (stands : pool.phases thread = .put item left) :
    ∃ place', (pool.putItem thread item left).Sound place' := by
  cases left with
  | readFree =>
      exact ⟨place, sound.stand_same (fun _ => by simp [Takes, stands])
        (fun _ => by simp [stands]) trivial (fun inside => absurd inside id)⟩
  | setNext value => exact ⟨place, sound.setNext stands⟩
  | readNext =>
      exact ⟨place, sound.stand_same (fun _ => by simp [Takes, stands])
        (fun _ => by simp [stands]) rfl (fun inside => absurd inside id)⟩
  | compareAndSwap next =>
      simp only [MemoryPool.putItem]
      split
      case isTrue same => exact ⟨_, sound.exchange stands same⟩
      case isFalse =>
        exact ⟨place, sound.stand_same (fun _ => by simp [Takes, stands])
          (fun _ => by simp [stands]) trivial (fun inside => absurd inside id)⟩

theorem Sound.advance : ∃ place', (pool.advance thread).Sound place' := by
  unfold MemoryPool.advance
  split
  · exact ⟨place, sound⟩
  · rename_i stands
    exact sound.nextItem stands
  · rename_i stands
    exact ⟨_, sound.new stands⟩
  · rename_i item stands
    exact ⟨_, sound.handOut (fun other => by simp [Takes, stands, eq_comm])
      (fun _ _ => by simp [stands]) (sound.lock_kept fun inside => absurd inside id)⟩
  · rename_i stands
    exact sound.putItem stands

theorem Sound.step (action : Action) : ∃ place', (step action pool).Sound place' := by
  cases action with
  | get thread zero => exact ⟨place, sound.get zero⟩
  | put thread item => exact sound.put
  | give thread receiver item => exact sound.give receiver
  | advance thread => exact sound.advance

end Calls

theorem Sound.run {pool : MemoryPool} {place : Nat → Option Place} (sound : pool.Sound place)
    (actions : List Action) : ∃ place', (run actions pool).Sound place' := by
  induction actions generalizing pool place with
  | nil => exact ⟨place, sound⟩
  | cons action rest ih =>
      obtain ⟨_, sound⟩ := sound.step action
      exact ih sound

/-- An item is in exactly one place from its allocation on. Both lists come to an end, no
item is twice on one of them, and nobody has been handed one twice. -/
theorem run_one_place (actions : List Action) :
    (∀ item, item < (run actions create).news ↔
      ∃! where_, (run actions create).At item where_) ∧
    (∃ cells, Cells (run actions create).mNext (run actions create).mAvailable cells ∧
      cells.Nodup) ∧
    (∃ cells, Cells (run actions create).mNext (run actions create).mFree cells ∧
      cells.Nodup) ∧
    (run actions create).held.Nodup := by
  obtain ⟨place, sound⟩ := create_sound.run actions
  refine ⟨fun item => ?_, ?_, ?_, sound.distinct⟩
  · rw [← Nat.not_le, ← sound.news]
    constructor
    · intro created
      obtain ⟨where_, there⟩ := Option.ne_none_iff_exists'.mp created
      refine ⟨where_, (sound.there item where_).mpr there, fun other at_ => ?_⟩
      exact Option.some.inj (((sound.there item other).mp at_).symm.trans there)
    · rintro ⟨where_, at_, _⟩ none_
      cases none_.symm.trans ((sound.there item where_).mp at_)
  · obtain ⟨cells, linked⟩ := sound.available
    exact ⟨cells, linked, linked.nodup⟩
  · obtain ⟨cells, linked⟩ := sound.free
    exact ⟨cells, linked, linked.nodup⟩

end MemoryPool

end Sbf
