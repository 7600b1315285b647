import Sbf.QueueDispatch

set_option autoImplicit false

namespace Sbf

namespace Pool

def items (pool : Pool) : List Nat := pool.mAvailable ++ pool.mFree

/-- An item comes out of the pool, or is new when the pool is empty. -/
theorem get_cases (pool : Pool) :
    (pool.get.1 :: pool.get.2.items = pool.items ∧ pool.get.2.fresh = pool.fresh) ∨
      (pool.items = [] ∧ pool.get.2.items = [] ∧ pool.get.1 = pool.fresh ∧
        pool.get.2.fresh = pool.fresh + 1) := by
  obtain ⟨available, free, fresh⟩ := pool
  cases available with
  | cons item rest => exact Or.inl ⟨rfl, rfl⟩
  | nil =>
      cases free with
      | cons item rest => exact Or.inl ⟨by simp [get, items], rfl⟩
      | nil => exact Or.inr ⟨rfl, rfl, rfl, rfl⟩

theorem mem_put {pool : Pool} {item other : Nat} :
    other ∈ (pool.put item).items ↔ other = item ∨ other ∈ pool.items := by
  simp only [put, items, List.mem_append, List.mem_cons]
  tauto

theorem nodup_put {pool : Pool} {item : Nat} (distinct : pool.items.Nodup)
    (absent : item ∉ pool.items) : (pool.put item).items.Nodup :=
  List.nodup_middle.mpr (List.nodup_cons.mpr ⟨absent, distinct⟩)

end Pool

namespace Queue

theorem enqueue_owned {queue : Queue} {thread address : Nat} (idle : queue.producers thread = none)
    (outside : queue.inside address = false) : queue.enqueue thread address = { queue with
      producers := Function.update queue.producers thread (some (.clear (.item address)))
      inside := Function.update queue.inside address true } := by
  rw [enqueue, if_pos ⟨idle, outside⟩]

/-- The history after a step of a producer. -/
theorem produce_history (queue : Queue) (thread : Nat) :
    (queue.produce thread).exchanged = queue.exchanged ++ QueueLife.exchanges queue thread ∧
      (queue.produce thread).returned = queue.returned ∧
      (queue.produce thread).inside = queue.inside ∧
      ∀ other, other ≠ thread → (queue.produce thread).producers other = queue.producers other := by
  unfold produce QueueLife.exchanges
  cases queue.producers thread with
  | none => simp
  | some appending =>
      cases appending with
      | clear item => simp +contextual [enqueue1, Function.update_of_ne]
      | link item last => simp +contextual [enqueue1, Function.update_of_ne]
      | exchange item => cases item <;> simp +contextual [enqueue1, Function.update_of_ne]

section Consume

variable {queue : Queue} {chain : List QueueItem}

/-- A step of the consumer that is not the last of a call leaves the history as it is. -/
theorem Sound.consume_quiet (sound : queue.Sound chain)
    (moves : ∀ tail next, queue.consumer ≠ .take tail next) :
    queue.consume.exchanged = queue.exchanged ∧ queue.consume.returned = queue.returned ∧
      queue.consume.inside = queue.inside ∧
      ∀ item, queue.consume.consumer ≠ .returned (some item) := by
  have known := sound.consumer
  rw [ConsumerSound] at known
  cases stands : queue.consumer with
  | take tail next => exact absurd stands (moves tail next)
  | insertEmpty tail appending =>
      rw [stands] at known
      have node := known.2.2.1
      cases appending with
      | exchange item =>
          obtain rfl : item = .mEmpty := node
          simp [Queue.consume, stands, enqueue1]
      | clear item => simp [Queue.consume, stands, enqueue1]
      | link item last => simp [Queue.consume, stands, enqueue1]
  | returned item => simp [Queue.consume, stands, callNext]
  | skipEmpty next => simp [Queue.consume, stands]
  | readHead tail =>
      simp only [Queue.consume, stands]
      split <;> simp
  | readBehind tail =>
      simp only [Queue.consume, stands]
      split <;> simp
  | readAgain tail =>
      simp only [Queue.consume, stands]
      split <;> simp
  | readNext tail =>
      simp only [Queue.consume, stands]
      split <;> split <;> simp

/-- The last step of a call returns the first item that was not returned yet. -/
theorem Sound.consume_take (sound : queue.Sound chain) {tail next : QueueItem}
    (stands : queue.consumer = .take tail next) :
    ∃ address rest, queue.consume.consumer = .returned (some (.item address)) ∧
      queue.consume.exchanged = queue.exchanged ∧
      queue.consume.returned = queue.returned ++ [.item address] ∧
      queue.consume.inside = Function.update queue.inside address false ∧
      queue.inside address = true ∧
      queue.exchanged.drop queue.returned.length = address :: rest := by
  have known := sound.consumer
  rw [ConsumerSound, stands] at known
  obtain ⟨rfl, differs, _⟩ := known
  obtain ⟨behind, rfl, _⟩ := sound.take stands
  obtain ⟨address, here⟩ : ∃ address, queue.mTail = .item address := by
    cases shape : queue.mTail with
    | mEmpty => exact absurd shape differs
    | item address => exact ⟨address, rfl⟩
  have inside := sound.inside address (here ▸ List.mem_cons_self)
  have items := sound.pending_eq
  rw [pending, List.filter_cons_of_pos (by simpa using differs), here, ← List.map_drop] at items
  obtain ⟨first, rest, shape, item, _⟩ := List.map_eq_cons_iff.mp items
  cases item
  refine ⟨address, rest, ?_, ?_, ?_, ?_, inside, shape⟩ <;>
    simp [Queue.consume, stands, here, giveBack]

end Consume

end Queue

/-- The item that a thread has got and not queued yet. -/
def Enqueuing.item : Enqueuing → Option Nat
  | .setCb item _ | .readExited item => some item
  | _ => none

/-- The reference of `sbfQueue_create`, which `sbfQueue_destroy` removes. -/
def Destroying.refs : Destroying → Nat
  | .finished => 0
  | _ => 1

/-- The reference for the marker has been taken. -/
def Destroying.started : Destroying → Bool
  | .idle | .addRef => false
  | _ => true

/-- The item that was dequeued and not put back yet. -/
def Dispatching.item : Dispatching → Option Nat
  | .readCb item | .callback item | .put item _ => some item
  | _ => none

/-- The item that was dequeued last, as long as it is looked at. -/
def Dispatching.looksAt : Dispatching → Option Nat
  | .readCb item | .callback item | .put item _ | .testCb item _ => some item
  | _ => none

theorem Dispatching.item_eq_none {dispatcher : Dispatching} (looks : dispatcher.looksAt = none) :
    dispatcher.item = none := by
  cases dispatcher <;> simp [looksAt, item] at looks ⊢

def Dispatching.refs : Dispatching → Nat
  | .addRef | .finished => 0
  | _ => 1

/-- The loop has been left. -/
def Dispatching.left : Dispatching → Bool
  | .removeMarker | .removeRef | .finished => true
  | _ => false

/-- The reference for the marker has been removed. -/
def Dispatching.dropped : Dispatching → Bool
  | .removeRef | .finished => true
  | _ => false

namespace QueueLife

/-- Every item is in one place: in the pool, with a thread that enqueues it, in the queue
or with the dispatch thread. -/
structure Owned (pool : Pool) (inside : Nat → Bool) (callers : Nat → Option Nat)
    (dispatcher : Option Nat) : Prop where
  distinct : pool.items.Nodup
  free : ∀ item ∈ pool.items, item < pool.fresh ∧ inside item = false
  held : ∀ thread item, callers thread = some item →
    item < pool.fresh ∧ item ∉ pool.items ∧ inside item = false
  apart : ∀ one other item, callers one = some item → callers other = some item → one = other
  dispatched : ∀ item, dispatcher = some item → item < pool.fresh ∧ item ∉ pool.items ∧
    inside item = false ∧ ∀ thread, callers thread ≠ some item
  old : ∀ item, inside item = true → item < pool.fresh

namespace Owned

variable {pool : Pool} {inside : Nat → Bool} {callers callers' : Nat → Option Nat}
  {dispatcher dispatcher' : Option Nat}

/-- Threads may only lose items. -/
theorem keeps (owned : Owned pool inside callers dispatcher)
    (fewer : ∀ thread item, callers' thread = some item → callers thread = some item)
    (less : ∀ item, dispatcher' = some item → dispatcher = some item) :
    Owned pool inside callers' dispatcher' where
  distinct := owned.distinct
  free := owned.free
  held thread item holds := owned.held thread item (fewer thread item holds)
  apart one other item first second :=
    owned.apart one other item (fewer one item first) (fewer other item second)
  dispatched item holds := by
    obtain ⟨new, absent, outside, nobody⟩ := owned.dispatched item (less item holds)
    exact ⟨new, absent, outside, fun thread holds' => nobody thread (fewer thread item holds')⟩
  old := owned.old

theorem update_some {thread other item : Nat} {new : Option Nat} :
    Function.update callers thread new other = some item ↔
      (other = thread ∧ new = some item) ∨ (other ≠ thread ∧ callers other = some item) := by
  by_cases here : other = thread
  · subst here
    simp
  · simp [here]

/-- `sbfPool_get` hands out what nobody has. -/
theorem get (owned : Owned pool inside callers dispatcher) (thread : Nat) :
    Owned pool.get.2 inside (Function.update callers thread (some pool.get.1)) dispatcher := by
  have facts : pool.get.2.items.Nodup ∧ pool.get.1 ∉ pool.get.2.items ∧
      (∀ item ∈ pool.get.2.items, item ∈ pool.items) ∧ pool.fresh ≤ pool.get.2.fresh ∧
      pool.get.1 < pool.get.2.fresh ∧ inside pool.get.1 = false ∧
      (∀ other, callers other ≠ some pool.get.1) ∧ dispatcher ≠ some pool.get.1 := by
    rcases pool.get_cases with ⟨items, same⟩ | ⟨empty, empty', new, more⟩
    · have distinct := owned.distinct
      rw [← items] at distinct
      obtain ⟨absent, distinct⟩ := List.nodup_cons.mp distinct
      have member : pool.get.1 ∈ pool.items := items ▸ List.mem_cons_self
      obtain ⟨old, outside⟩ := owned.free _ member
      refine ⟨distinct, absent, fun item inside => items ▸ List.mem_cons_of_mem _ inside,
        Nat.le_of_eq same.symm, same ▸ old, outside, ?_, ?_⟩
      · exact fun other holds => (owned.held other _ holds).2.1 member
      · exact fun holds => (owned.dispatched _ holds).2.1 member
    · rw [empty', new, more]
      refine ⟨List.nodup_nil, List.not_mem_nil, fun _ member => (nomatch member), Nat.le_succ _,
        Nat.lt_succ_self _, ?_, ?_, ?_⟩
      · by_contra inside'
        exact Nat.lt_irrefl _ (owned.old _ (Bool.not_eq_false _ ▸ inside'))
      · exact fun other holds => Nat.lt_irrefl _ (owned.held other _ holds).1
      · exact fun holds => Nat.lt_irrefl _ (owned.dispatched _ holds).1
  obtain ⟨distinct, absent, fewer, more, new, outside, nobody, apart⟩ := facts
  refine ⟨distinct, ?_, ?_, ?_, ?_, fun item inside' => Nat.lt_of_lt_of_le (owned.old item inside') more⟩
  · intro item member
    obtain ⟨old, outside⟩ := owned.free item (fewer item member)
    exact ⟨Nat.lt_of_lt_of_le old more, outside⟩
  · intro other item holds
    rcases update_some.mp holds with ⟨_, same⟩ | ⟨_, holds⟩
    · cases same
      exact ⟨new, absent, outside⟩
    · obtain ⟨old, absent, outside⟩ := owned.held other item holds
      exact ⟨Nat.lt_of_lt_of_le old more, fun member => absent (fewer item member), outside⟩
  · intro one other item first second
    rcases update_some.mp first with ⟨here, same⟩ | ⟨_, first⟩
    · rcases update_some.mp second with ⟨here', _⟩ | ⟨_, second⟩
      · exact here.trans here'.symm
      · exact absurd (same ▸ second) (nobody other)
    · rcases update_some.mp second with ⟨_, same⟩ | ⟨_, second⟩
      · exact absurd (same ▸ first) (nobody one)
      · exact owned.apart one other item first second
  · intro item holds
    obtain ⟨old, absent, outside, others⟩ := owned.dispatched item holds
    refine ⟨Nat.lt_of_lt_of_le old more, fun member => absent (fewer item member), outside, ?_⟩
    intro other holds'
    rcases update_some.mp holds' with ⟨_, same⟩ | ⟨_, holds'⟩
    · exact apart (same ▸ holds)
    · exact others other holds'

/-- A thread gives its item to the queue. -/
theorem enqueue (owned : Owned pool inside callers dispatcher) {thread item : Nat}
    (holds : callers thread = some item) :
    Owned pool (Function.update inside item true) (Function.update callers thread none)
      dispatcher := by
  obtain ⟨old, absent, _⟩ := owned.held thread item holds
  have apart : ∀ other, other ≠ item → inside other = false →
      Function.update inside item true other = false := fun other differs outside =>
    (Function.update_of_ne differs _ _).trans outside
  refine ⟨owned.distinct, ?_, ?_, ?_, ?_, ?_⟩
  · intro other member
    obtain ⟨new, outside⟩ := owned.free other member
    exact ⟨new, apart other (fun same => absent (same ▸ member)) outside⟩
  · intro other item' holds'
    rcases update_some.mp holds' with ⟨_, same⟩ | ⟨differs, holds'⟩
    · cases same
    · obtain ⟨new, absent', outside⟩ := owned.held other item' holds'
      refine ⟨new, absent', apart item' ?_ outside⟩
      rintro rfl
      exact differs (owned.apart other thread _ holds' holds)
  · intro one other item' first second
    rcases update_some.mp first with ⟨_, same⟩ | ⟨_, first⟩
    · cases same
    · rcases update_some.mp second with ⟨_, same⟩ | ⟨_, second⟩
      · cases same
      · exact owned.apart one other item' first second
  · intro item' holds'
    obtain ⟨new, absent', outside, nobody⟩ := owned.dispatched item' holds'
    refine ⟨new, absent', apart item' ?_ outside, ?_⟩
    · rintro rfl
      exact nobody thread holds
    · intro other holds''
      rcases update_some.mp holds'' with ⟨_, same⟩ | ⟨_, holds''⟩
      · cases same
      · exact nobody other holds''
  · intro other inside'
    by_cases here : other = item
    · exact here ▸ old
    · exact owned.old other ((Function.update_of_ne here _ _).symm.trans inside')

/-- The dispatch thread gets an item from the queue. -/
theorem take (owned : Owned pool inside callers none) {item : Nat} (within : inside item = true) :
    Owned pool (Function.update inside item false) callers (some item) := by
  have apart : ∀ other, inside other = false → Function.update inside item false other = false := by
    intro other outside
    rw [Function.update_apply]
    split
    · rfl
    · exact outside
  refine ⟨owned.distinct, ?_, ?_, owned.apart, ?_, ?_⟩
  · intro other member
    obtain ⟨new, outside⟩ := owned.free other member
    exact ⟨new, apart other outside⟩
  · intro thread other holds
    obtain ⟨new, absent, outside⟩ := owned.held thread other holds
    exact ⟨new, absent, apart other outside⟩
  · rintro _ ⟨⟩
    refine ⟨owned.old item within, ?_, Function.update_self _ _ _, ?_⟩
    · intro member
      cases within.symm.trans (owned.free item member).2
    · intro thread holds
      cases within.symm.trans (owned.held thread item holds).2.2
  · intro other inside'
    by_cases here : other = item
    · exact here ▸ owned.old item within
    · exact owned.old other ((Function.update_of_ne here _ _).symm.trans inside')

/-- `sbfPool_put` -/
theorem put {item : Nat} (owned : Owned pool inside callers (some item)) :
    Owned (pool.put item) inside callers none := by
  obtain ⟨old, absent, outside, nobody⟩ := owned.dispatched item rfl
  refine ⟨Pool.nodup_put owned.distinct absent, ?_, ?_, owned.apart, nofun, owned.old⟩
  · intro other member
    rcases Pool.mem_put.mp member with rfl | member
    · exact ⟨old, outside⟩
    · exact owned.free other member
  · intro thread other holds
    obtain ⟨old', absent', outside'⟩ := owned.held thread other holds
    refine ⟨old', fun member => ?_, outside'⟩
    rcases Pool.mem_put.mp member with rfl | member
    · exact nobody thread holds
    · exact absent' member

end Owned

/-- The references are those that are still to be removed. -/
structure Counted (mRefCount : Nat) (freed : Bool) (destroyer : Destroying)
    (dispatcher : Dispatching) : Prop where
  count : mRefCount =
    destroyer.refs + (destroyer.started && !dispatcher.dropped).toNat + dispatcher.refs
  left : dispatcher.left = true → destroyer.started = true
  freed : freed = true → destroyer = .finished ∧ dispatcher = .finished

def items (state : QueueLife) : Nat → Option Nat := fun thread => (state.callers thread).item

/-- What was dequeued and not accounted for in `ran` yet. -/
def current (state : QueueLife) : List (Option Nat) :=
  match state.dispatcher with
  | .readCb item | .callback item => [state.mCb item]
  | .put _ true | .testCb _ true | .removeMarker | .removeRef | .finished => [none]
  | _ => []

/-- What the dispatch thread knows of the `mCb` of its item. -/
def Marks (mCb : Nat → Option Nat) (rewritten : Bool) : Dispatching → Prop
  | .callback item => mCb item ≠ none
  | .put item marker => (mCb item).isNone = marker
  | .testCb item marker => rewritten = ((mCb item).isNone != marker)
  | _ => True

structure Recorded (state : QueueLife) : Prop where
  length : state.queued.length = state.queue.exchanged.length
  recorded : (state.queue.exchanged.drop state.queue.returned.length).map state.mCb =
    state.queued.drop state.queue.returned.length
  handled : state.stale = false →
    state.queued.take state.queue.returned.length = state.ran.map some ++ state.current
  marks : Marks state.mCb state.rewritten state.dispatcher
  tests : state.stale = false ↔ ∀ test ∈ state.tests, test.1 = test.2

/-- Before `sbfQueue_destroy` asks for the marker there is no `NULL` to be found. -/
structure Unmarked (state : QueueLife) : Prop where
  idle : state.callers 0 = .idle
  within : ∀ item, state.queue.inside item = true → state.mCb item ≠ none
  stored : ∀ thread item, state.callers thread = .readExited item → state.mCb item ≠ none
  asked : ∀ thread, state.callers thread ≠ .getItem none
  got : ∀ thread item, state.callers thread ≠ .setCb item none
  looked : ∀ item, state.dispatcher.looksAt = some item → state.mCb item ≠ none

structure Sound (state : QueueLife) : Prop where
  queue : ∃ chain, state.queue.Sound chain
  owned : Owned state.pool state.queue.inside state.items state.dispatcher.item
  counted : Counted state.mRefCount state.freed state.destroyer state.dispatcher
  recorded : state.Recorded
  unmarked : state.destroyer.started = false → state.Unmarked
  producers : ∀ thread, state.callers thread ≠ .enqueue → state.queue.producers thread = none

theorem create_sound (memory : QueueItem → Option QueueItem) (mCb : Nat → Option Nat) :
    (create memory mCb).Sound where
  queue := ⟨_, Queue.create_sound memory⟩
  owned := ⟨List.nodup_nil, nofun, nofun, nofun, nofun, nofun⟩
  counted := ⟨rfl, nofun, nofun⟩
  recorded := ⟨rfl, rfl, fun _ => rfl, trivial, iff_of_true rfl nofun⟩
  unmarked _ := ⟨rfl, nofun, nofun, fun _ => nofun, fun _ _ => nofun, nofun⟩
  producers _ _ := rfl

section Steps

variable {state : QueueLife}

theorem items_setCaller (thread : Nat) (caller : Enqueuing) :
    (state.setCaller thread caller).items = Function.update state.items thread caller.item := by
  funext other
  by_cases here : other = thread
  · subst here
    simp [items, setCaller]
  · simp [items, setCaller, here]

theorem update_eq {callers : Nat → Enqueuing} {thread other : Nat} {new caller : Enqueuing} :
    Function.update callers thread new other = caller ↔
      (other = thread ∧ new = caller) ∨ (other ≠ thread ∧ callers other = caller) := by
  by_cases here : other = thread
  · subst here
    simp
  · simp [here]

/-- A thread that is not in `sbfQueueEnqueue`, nor goes there, moves on without an item. -/
theorem Sound.sets (sound : state.Sound) {thread : Nat} {caller : Enqueuing}
    (idle : state.queue.producers thread = none)
    (item : caller.item = none ∨ caller.item = (state.callers thread).item)
    (unmarked : state.destroyer.started = false → (∀ item, caller ≠ .readExited item) ∧
      caller ≠ .getItem none ∧ (∀ item, caller ≠ .setCb item none) ∧ (thread = 0 → caller = .idle)) :
    (state.setCaller thread caller).Sound where
  queue := sound.queue
  owned := by
    rw [items_setCaller]
    refine sound.owned.keeps ?_ (fun _ => id)
    intro other item' holds
    rcases Owned.update_some.mp holds with ⟨here, same⟩ | ⟨_, holds⟩
    · rcases item with none_ | had
      · cases none_.symm.trans same
      · rw [items, here, ← had]
        exact same
    · exact holds
  counted := sound.counted
  recorded := ⟨sound.recorded.length, sound.recorded.recorded, sound.recorded.handled,
    sound.recorded.marks, sound.recorded.tests⟩
  unmarked early := by
    have old := sound.unmarked early
    obtain ⟨stored, asked, got, mine⟩ := unmarked early
    refine ⟨?_, old.within, ?_, ?_, ?_, old.looked⟩
    · by_cases here : 0 = thread
      · exact update_eq.mpr (Or.inl ⟨here, mine here.symm⟩)
      · exact update_eq.mpr (Or.inr ⟨here, old.idle⟩)
    · intro other item' reads
      rcases update_eq.mp reads with ⟨_, same⟩ | ⟨_, reads⟩
      · exact absurd same (stored item')
      · exact old.stored other item' reads
    · intro other asks
      rcases update_eq.mp asks with ⟨_, same⟩ | ⟨_, asks⟩
      · exact asked same
      · exact old.asked other asks
    · intro other item' has
      rcases update_eq.mp has with ⟨_, same⟩ | ⟨_, has⟩
      · exact got item' same
      · exact old.got other item' has
  producers other away := by
    by_cases here : other = thread
    · rw [here]
      exact idle
    · exact sound.producers other (fun same => away (update_eq.mpr (Or.inr ⟨here, same⟩)))

/-- The addresses of the items that were queued and not dequeued yet. -/
theorem pending_inside {queue : Queue} {chain : List QueueItem} (sound : queue.Sound chain)
    {item : Nat} (member : item ∈ queue.exchanged.drop queue.returned.length) :
    queue.inside item = true := by
  have items := sound.pending_eq
  rw [Queue.pending, ← List.map_drop] at items
  have inside : QueueItem.item item ∈ chain.filter (· ≠ .mEmpty) :=
    items ▸ List.mem_map_of_mem member
  exact sound.inside item (List.mem_filter.mp inside).1

theorem returned_le {queue : Queue} {chain : List QueueItem} (sound : queue.Sound chain) :
    queue.returned.length ≤ queue.exchanged.length := by
  have lengths := congrArg List.length sound.items
  rw [List.length_map, List.length_append] at lengths
  omega

theorem Sound.enqueue (sound : state.Sound) (thread cb : Nat) : (state.enqueue thread cb).Sound := by
  unfold QueueLife.enqueue
  split
  · rename_i thread' idle
    refine sound.sets (sound.producers _ (by rw [idle]; nofun)) (Or.inl rfl) ?_
    exact fun _ => ⟨nofun, nofun, nofun, nofun⟩
  · exact sound

theorem Sound.getItem (sound : state.Sound) {thread : Nat} {cb : Option Nat}
    (stands : state.callers thread = .getItem cb) :
    Sound ({ state with pool := state.pool.get.2 }.setCaller thread (.setCb state.pool.get.1 cb)) where
  queue := sound.queue
  owned := by
    rw [items_setCaller]
    exact sound.owned.get thread
  counted := sound.counted
  recorded := ⟨sound.recorded.length, sound.recorded.recorded, sound.recorded.handled,
    sound.recorded.marks, sound.recorded.tests⟩
  unmarked early := by
    have old := sound.unmarked early
    have named : ∃ cb', cb = some cb' := by
      cases cb with
      | none => exact absurd stands (old.asked thread)
      | some cb' => exact ⟨cb', rfl⟩
    obtain ⟨cb', rfl⟩ := named
    refine ⟨?_, old.within, ?_, ?_, ?_, old.looked⟩
    · refine update_eq.mpr (Or.inr ⟨?_, old.idle⟩)
      rintro rfl
      cases old.idle.symm.trans stands
    · intro other item reads
      rcases update_eq.mp reads with ⟨_, ⟨⟩⟩ | ⟨_, reads⟩
      exact old.stored other item reads
    · intro other asks
      rcases update_eq.mp asks with ⟨_, ⟨⟩⟩ | ⟨_, asks⟩
      exact old.asked other asks
    · intro other item has
      rcases update_eq.mp has with ⟨_, ⟨⟩⟩ | ⟨_, has⟩
      exact old.got other item has
  producers other away := by
    by_cases here : other = thread
    · rw [here]
      exact sound.producers thread (by rw [stands]; nofun)
    · exact sound.producers other (fun same => away (update_eq.mpr (Or.inr ⟨here, same⟩)))

/-- `mCb` is stored into an item that nobody else has. -/
theorem Sound.setCb (sound : state.Sound) {thread item : Nat} {cb : Option Nat}
    (stands : state.callers thread = .setCb item cb) : (state.call thread).Sound := by
  have holds : state.items thread = some item := by rw [items, stands]; rfl
  obtain ⟨new, absent, outside⟩ := sound.owned.held thread item holds
  obtain ⟨chain, queue⟩ := sound.queue
  have others : ∀ other, other ≠ item → Function.update state.mCb item cb other = state.mCb other :=
    fun other differs => Function.update_of_ne differs _ _
  have untouched : ∀ other, state.dispatcher.item = some other → other ≠ item := by
    rintro other dispatched rfl
    exact (sound.owned.dispatched other dispatched).2.2.2 thread holds
  have shape : state.call thread = { state with
      mCb := Function.update state.mCb item cb
      rewritten := state.rewrites item cb }.setCaller thread (.readExited item) := by
    rw [call, stands]
  rw [shape]
  refine ⟨⟨chain, queue⟩, ?_, sound.counted, ⟨sound.recorded.length, ?_, ?_, ?_, sound.recorded.tests⟩,
    ?_, ?_⟩
  · rw [items_setCaller]
    refine sound.owned.keeps ?_ (fun _ => id)
    intro other item' holds'
    rcases Owned.update_some.mp holds' with ⟨rfl, same⟩ | ⟨_, holds'⟩
    · exact holds.trans same
    · exact holds'
  · refine Eq.trans (List.map_congr_left ?_) sound.recorded.recorded
    intro other member
    refine others other ?_
    rintro rfl
    cases outside.symm.trans (pending_inside queue member)
  · intro fresh
    refine (sound.recorded.handled fresh).trans (congrArg _ ?_)
    simp only [current, setCaller]
    cases at_ : state.dispatcher with
    | readCb other => simp only [others other (untouched other (by rw [at_]; rfl))]
    | callback other => simp only [others other (untouched other (by rw [at_]; rfl))]
    | put other marker => cases marker <;> rfl
    | testCb other marker => cases marker <;> rfl
    | _ => rfl
  · have marks := sound.recorded.marks
    simp only [setCaller, rewrites, Marks] at marks ⊢
    cases at_ : state.dispatcher with
    | callback other =>
        rw [at_] at marks
        simp only [others other (untouched other (by rw [at_]; rfl))]
        exact marks
    | put other marker =>
        rw [at_] at marks
        simp only [others other (untouched other (by rw [at_]; rfl))]
        exact marks
    | testCb other marker =>
        rw [at_] at marks
        by_cases here : item = other
        · subst here
          simp
        · simp only [if_neg here, others other (Ne.symm here)]
          exact marks
    | _ => trivial
  · intro early
    have old := sound.unmarked early
    have named : cb ≠ none := by
      rintro rfl
      exact old.got thread item stands
    have stays : ∀ other, state.mCb other ≠ none → Function.update state.mCb item cb other ≠ none := by
      intro other some_cb
      rw [Function.update_apply]
      split
      · exact named
      · exact some_cb
    refine ⟨?_, fun other inside => stays other (old.within other inside), ?_, ?_, ?_,
      fun other looked => stays other (old.looked other looked)⟩
    · refine update_eq.mpr (Or.inr ⟨?_, old.idle⟩)
      rintro rfl
      cases old.idle.symm.trans stands
    · intro other item' reads
      rcases update_eq.mp reads with ⟨_, ⟨⟩⟩ | ⟨_, reads⟩
      · exact (Function.update_self item cb state.mCb).trans_ne named
      · exact stays item' (old.stored other item' reads)
    · intro other asks
      rcases update_eq.mp asks with ⟨_, ⟨⟩⟩ | ⟨_, asks⟩
      exact old.asked other asks
    · intro other item' has
      rcases update_eq.mp has with ⟨_, ⟨⟩⟩ | ⟨_, has⟩
      exact old.got other item' has
  · intro other away
    by_cases here : other = thread
    · rw [here]
      exact sound.producers thread (by rw [stands]; nofun)
    · exact sound.producers other (fun same => away (update_eq.mpr (Or.inr ⟨here, same⟩)))

/-- The item goes to the queue, which is free to take it. -/
theorem Sound.enqueues (sound : state.Sound) {thread item : Nat}
    (stands : state.callers thread = .readExited item) :
    Sound ({ state with queue := state.queue.enqueue thread item }.setCaller thread .enqueue) := by
  have holds : state.items thread = some item := by rw [items, stands]; rfl
  obtain ⟨_, _, outside⟩ := sound.owned.held thread item holds
  obtain ⟨chain, queue⟩ := sound.queue
  have idle := sound.producers thread (by rw [stands]; nofun)
  have shape := Queue.enqueue_owned idle outside
  refine ⟨⟨chain, queue.enqueue thread item⟩, ?_, sound.counted, ?_, ?_, ?_⟩
  · rw [items_setCaller]
    have owned := sound.owned.enqueue holds
    simp only [setCaller, shape]
    exact owned
  · refine ⟨?_, ?_, ?_, sound.recorded.marks, sound.recorded.tests⟩ <;> simp only [setCaller, shape]
    · exact sound.recorded.length
    · exact sound.recorded.recorded
    · exact sound.recorded.handled
  · intro early
    have old := sound.unmarked early
    refine ⟨?_, ?_, ?_, ?_, ?_, old.looked⟩
    · refine update_eq.mpr (Or.inr ⟨?_, old.idle⟩)
      rintro rfl
      cases old.idle.symm.trans stands
    · intro other inside
      simp only [setCaller, shape] at inside
      by_cases here : other = item
      · rw [here]
        exact old.stored thread item stands
      · exact old.within other ((Function.update_of_ne here _ _).symm.trans inside)
    · intro other item' reads
      rcases update_eq.mp reads with ⟨_, ⟨⟩⟩ | ⟨_, reads⟩
      exact old.stored other item' reads
    · intro other asks
      rcases update_eq.mp asks with ⟨_, ⟨⟩⟩ | ⟨_, asks⟩
      exact old.asked other asks
    · intro other item' has
      rcases update_eq.mp has with ⟨_, ⟨⟩⟩ | ⟨_, has⟩
      exact old.got other item' has
  · intro other away
    by_cases here : other = thread
    · exact absurd (update_eq.mpr (Or.inl ⟨here, rfl⟩)) away
    · simp only [setCaller, shape]
      refine (Function.update_of_ne here _ _).trans ?_
      exact sound.producers other (fun same => away (update_eq.mpr (Or.inr ⟨here, same⟩)))

/-- A step in `sbfQueueEnqueue`, with which the item may be queued. -/
theorem Sound.produces (sound : state.Sound) {thread : Nat}
    (stands : state.callers thread = .enqueue) :
    Sound { state with
      queue := state.queue.produce thread
      queued := state.queued ++ (exchanges state.queue thread).map state.mCb } := by
  obtain ⟨chain, queue⟩ := sound.queue
  obtain ⟨exchanged, returned, inside, others⟩ := state.queue.produce_history thread
  have fits := returned_le queue
  have fits' : state.queue.returned.length ≤ state.queued.length := by
    rw [sound.recorded.length]
    exact fits
  refine ⟨⟨_, queue.produce thread⟩, ?_, sound.counted, ?_, ?_, ?_⟩
  · simp only [inside]
    exact sound.owned
  · refine ⟨?_, ?_, ?_, sound.recorded.marks, sound.recorded.tests⟩
    · simp only [exchanged, List.length_append, List.length_map, sound.recorded.length]
    · simp only [exchanged, returned]
      rw [List.drop_append_of_le_length fits, List.drop_append_of_le_length fits', List.map_append,
        sound.recorded.recorded]
    · simp only [returned]
      rw [List.take_append_of_le_length fits']
      exact sound.recorded.handled
  · intro early
    have old := sound.unmarked early
    refine ⟨old.idle, ?_, old.stored, old.asked, old.got, old.looked⟩
    simp only [inside]
    exact old.within
  · intro other away
    have differs : other ≠ thread := by
      rintro rfl
      exact away stands
    exact (others other differs).trans (sound.producers other away)

theorem Sound.call (sound : state.Sound) (thread : Nat) : (state.call thread).Sound := by
  cases stands : state.callers thread with
  | idle =>
      rw [QueueLife.call, stands]
      exact sound
  | failed =>
      rw [QueueLife.call, stands]
      exact sound
  | getItem cb =>
      rw [QueueLife.call, stands]
      exact sound.getItem stands
  | setCb item cb => exact sound.setCb stands
  | readExited item =>
      rw [QueueLife.call, stands]
      simp only
      split
      · refine sound.sets (sound.producers _ (by rw [stands]; nofun)) (Or.inl rfl) ?_
        refine fun early => ⟨nofun, nofun, nofun, ?_⟩
        rintro rfl
        cases (sound.unmarked early).idle.symm.trans stands
      · exact sound.enqueues stands
  | enqueue =>
      rw [QueueLife.call, stands]
      simp only
      split
      · rename_i over_
        exact sound.sets over_ (Or.inl rfl) (fun _ => ⟨nofun, nofun, nofun, fun _ => rfl⟩)
      · exact sound.produces stands

/-- Steps of `sbfQueue_destroy` other than its enqueuing change only the references. -/
theorem Sound.destroys (sound : state.Sound) {mRefCount : Nat} {freed mExited : Bool}
    {destroyer : Destroying} (counted : Counted mRefCount freed destroyer state.dispatcher)
    (early : destroyer.started = false → state.destroyer.started = false) :
    Sound { state with
      mRefCount := mRefCount, freed := freed, mExited := mExited, destroyer := destroyer } where
  queue := sound.queue
  owned := sound.owned
  counted := counted
  recorded := ⟨sound.recorded.length, sound.recorded.recorded, sound.recorded.handled,
    sound.recorded.marks, sound.recorded.tests⟩
  unmarked early' := by
    have old := sound.unmarked (early early')
    exact ⟨old.idle, old.within, old.stored, old.asked, old.got, old.looked⟩
  producers := sound.producers

/-- The last reference is removed when both are done. -/
theorem Counted.removes {mRefCount : Nat} {freed : Bool} {destroyer destroyer' : Destroying}
    {dispatcher dispatcher' : Dispatching} (counted : Counted mRefCount freed destroyer dispatcher)
    (left : dispatcher'.left = true → destroyer'.started = true)
    (count : mRefCount - 1 =
      destroyer'.refs + (destroyer'.started && !dispatcher'.dropped).toNat + dispatcher'.refs)
    (busy : ¬ (destroyer = .finished ∧ dispatcher = .finished))
    (last : mRefCount = 1 → destroyer' = .finished ∧ dispatcher' = .finished) :
    Counted (mRefCount - 1) (freed || mRefCount == 1) destroyer' dispatcher' where
  count := count
  left := left
  freed done := by
    rcases Bool.or_eq_true_iff.mp done with before | now
    · exact absurd (counted.freed before) busy
    · exact last (by simpa using now)

theorem Sound.destroy (sound : state.Sound) : state.destroy.Sound := by
  have counted := sound.counted
  cases stands : state.destroyer with
  | idle =>
      rw [QueueLife.destroy, stands]
      rw [stands] at counted
      exact sound.destroys ⟨counted.count, counted.left, fun done => nomatch (counted.freed done).1⟩
        (fun _ => by rw [stands]; rfl)
  | addRef =>
      rw [QueueLife.destroy, stands]
      rw [stands] at counted
      have old := sound.unmarked (by rw [stands]; rfl)
      have early : state.dispatcher.dropped = false := by
        cases at_ : state.dispatcher <;> first
          | rfl
          | exact nomatch counted.left (by rw [at_]; rfl)
      have started : Sound { state.addRef with destroyer := .enqueue } := by
        refine sound.destroys ⟨?_, fun _ => rfl, fun done => nomatch (counted.freed done).1⟩ nofun
        have count := counted.count
        simp only [addRef, early, Destroying.refs, Destroying.started, Bool.not_false, Bool.and_true,
          Bool.toNat_false, Bool.toNat_true] at count ⊢
        omega
      exact started.sets (sound.producers 0 (by rw [old.idle]; nofun)) (Or.inl rfl) nofun
  | enqueue =>
      rw [QueueLife.destroy, stands]
      rw [stands] at counted
      simp only
      split
      · exact sound.destroys ⟨counted.count, fun _ => rfl, fun done => nomatch (counted.freed done).1⟩
          nofun
      · exact sound.call 0
  | setExited =>
      rw [QueueLife.destroy, stands]
      rw [stands] at counted
      exact sound.destroys ⟨counted.count, fun _ => rfl, fun done => nomatch (counted.freed done).1⟩
        nofun
  | removeRef =>
      rw [QueueLife.destroy, stands]
      rw [stands] at counted
      refine sound.destroys (counted.removes (fun _ => rfl) ?_ ?_ ?_) nofun
      · rw [counted.count]
        simp only [Destroying.refs, Destroying.started]
        omega
      · exact fun both => nomatch both.1
      · intro one
        refine ⟨rfl, ?_⟩
        have count := counted.count
        rw [one] at count
        cases at_ : state.dispatcher <;> rw [at_] at count <;>
          simp [Destroying.refs, Destroying.started, Dispatching.refs, Dispatching.dropped] at count
  | finished =>
      rw [QueueLife.destroy, stands]
      exact sound

/-- Steps of `sbfQueue_dispatch` with the references alone. -/
theorem Sound.releases (sound : state.Sound) {mRefCount : Nat} {freed : Bool}
    {dispatcher : Dispatching} (counted : Counted mRefCount freed state.destroyer dispatcher)
    (looks : dispatcher.looksAt = none)
    (current : current { state with dispatcher := dispatcher } = state.current) :
    Sound { state with mRefCount := mRefCount, freed := freed, dispatcher := dispatcher } where
  queue := sound.queue
  owned := by
    refine sound.owned.keeps (fun _ _ => id) (fun item holds => ?_)
    rw [Dispatching.item_eq_none looks] at holds
    cases holds
  counted := counted
  recorded := by
    refine ⟨sound.recorded.length, sound.recorded.recorded, ?_, ?_, sound.recorded.tests⟩
    · intro fresh
      exact (sound.recorded.handled fresh).trans (congrArg _ current.symm)
    · cases dispatcher <;> simp [Dispatching.looksAt, Marks] at looks ⊢
  unmarked early := by
    have old := sound.unmarked early
    exact ⟨old.idle, old.within, old.stored, old.asked, old.got,
      fun _ looked => by rw [looks] at looked; cases looked⟩
  producers := sound.producers

theorem Sound.dequeue (sound : state.Sound) (stands : state.dispatcher = .dequeue) :
    state.dispatch.Sound := by
  obtain ⟨chain, queue⟩ := sound.queue
  have producers := state.queue.consume_producers
  have counted := sound.counted
  have owned := sound.owned
  have recorded := sound.recorded
  rw [stands] at counted owned
  by_cases moves : ∀ tail next, state.queue.consumer ≠ .take tail next
  · obtain ⟨exchanged, returned, inside, nothing⟩ := queue.consume_quiet moves
    have shape : state.dispatch = { state with queue := state.queue.consume } := by
      rw [dispatch, stands]
      simp only
      split
      · rename_i item found
        exact absurd found (nothing _)
      · rfl
    rw [shape]
    refine ⟨queue.consume, ?_, sound.counted, ?_, ?_, ?_⟩
    · simp only [inside]
      exact sound.owned
    · refine ⟨?_, ?_, ?_, recorded.marks, recorded.tests⟩ <;> simp only [exchanged, returned]
      · exact recorded.length
      · exact recorded.recorded
      · exact recorded.handled
    · intro early
      have old := sound.unmarked early
      refine ⟨old.idle, ?_, old.stored, old.asked, old.got, old.looked⟩
      simp only [inside]
      exact old.within
    · intro thread away
      exact (congrFun producers thread).trans (sound.producers thread away)
  · simp only [not_forall, not_not] at moves
    obtain ⟨tail, next, takes⟩ := moves
    obtain ⟨item, rest, found, exchanged, returned, inside, within, first⟩ := queue.consume_take takes
    have shape : state.dispatch =
        { state with queue := state.queue.consume, dispatcher := .readCb item } := by
      rw [dispatch, stands]
      simp only [found]
    have lengths : (state.queue.returned ++ [QueueItem.item item]).length =
        state.queue.returned.length + 1 := List.length_append
    have parts := recorded.recorded
    rw [first] at parts
    have taken : state.queued.take (state.queue.returned.length + 1) =
        state.queued.take state.queue.returned.length ++ [state.mCb item] := by
      rw [List.take_add_one, ← List.head?_drop, ← parts]
      rfl
    have dropped : state.queued.drop (state.queue.returned.length + 1) = rest.map state.mCb := by
      rw [← List.drop_drop, ← parts]
      rfl
    have dropped' : state.queue.exchanged.drop (state.queue.returned.length + 1) = rest := by
      rw [← List.drop_drop, first]
      rfl
    rw [shape]
    refine ⟨queue.consume, ?_, ⟨counted.count, nofun, fun done => (nomatch (counted.freed done).2)⟩,
      ?_, ?_, ?_⟩
    · simp only [inside]
      exact owned.take within
    · refine ⟨?_, ?_, ?_, trivial, recorded.tests⟩ <;> simp only [exchanged, returned, lengths]
      · exact recorded.length
      · rw [dropped, dropped']
      · intro fresh
        rw [taken, recorded.handled fresh]
        simp only [current, stands, List.append_nil]
    · intro early
      have old := sound.unmarked early
      refine ⟨old.idle, ?_, old.stored, old.asked, old.got, ?_⟩
      · intro other inside'
        simp only [inside] at inside'
        by_cases here : other = item
        · exact here ▸ old.within item within
        · exact old.within other ((Function.update_of_ne here _ _).symm.trans inside')
      · rintro _ ⟨⟩
        exact old.within item within
    · intro thread away
      exact (congrFun producers thread).trans (sound.producers thread away)

/-- The dispatch thread moves on with the item that it has. -/
theorem Sound.looks (sound : state.Sound) {dispatcher : Dispatching} {ran : List Nat}
    (item : dispatcher.item = state.dispatcher.item)
    (looks : dispatcher.looksAt = state.dispatcher.looksAt)
    (counted : Counted state.mRefCount state.freed state.destroyer dispatcher)
    (handled : state.ran.map some ++ state.current =
      ran.map some ++ current { state with dispatcher := dispatcher })
    (marks : Marks state.mCb state.rewritten dispatcher) :
    Sound { state with ran := ran, dispatcher := dispatcher } where
  queue := sound.queue
  owned := sound.owned.keeps (fun _ _ => id) (fun _ holds => item ▸ holds)
  counted := counted
  recorded := by
    refine ⟨sound.recorded.length, sound.recorded.recorded, ?_, marks, sound.recorded.tests⟩
    exact fun fresh => (sound.recorded.handled fresh).trans handled
  unmarked early := by
    have old := sound.unmarked early
    exact ⟨old.idle, old.within, old.stored, old.asked, old.got,
      fun other looked => old.looked other (looks ▸ looked)⟩
  producers := sound.producers

theorem Sound.puts (sound : state.Sound) {item : Nat} {marker : Bool}
    (stands : state.dispatcher = .put item marker) :
    Sound { state with
      pool := state.pool.put item
      rewritten := false
      dispatcher := .testCb item marker } := by
  have counted := sound.counted
  have owned := sound.owned
  have recorded := sound.recorded
  have marks := recorded.marks
  rw [stands] at counted owned marks
  refine ⟨sound.queue, owned.put, ⟨counted.count, nofun, fun done => (nomatch (counted.freed done).2)⟩,
    ⟨recorded.length, recorded.recorded, ?_, ?_, recorded.tests⟩, ?_, sound.producers⟩
  · intro fresh
    refine (recorded.handled fresh).trans (congrArg _ ?_)
    simp only [current, stands]
    cases marker <;> rfl
  · have kind : (state.mCb item).isNone = marker := marks
    simp only [Marks, kind, bne_self_eq_false]
  · intro early
    have old := sound.unmarked early
    refine ⟨old.idle, old.within, old.stored, old.asked, old.got, ?_⟩
    exact fun other looked => old.looked other (by rw [stands]; exact looked)

/-- The test of the loop: right exactly when the `mCb` is of the kind that it was. -/
theorem Sound.tested (sound : state.Sound) {item : Nat} {marker : Bool}
    (stands : state.dispatcher = .testCb item marker) : state.dispatch.Sound := by
  have counted := sound.counted
  have owned := sound.owned
  have recorded := sound.recorded
  have marks := recorded.marks
  rw [stands] at counted owned marks
  simp only [Marks] at marks
  have shape : state.dispatch = { state with
      tests := state.tests ++ [(marker, (state.mCb item).isNone)]
      stale := state.stale || state.rewritten
      dispatcher := if (state.mCb item).isNone then .removeMarker else .dequeue } := by
    rw [dispatch, stands]
  have tests : (state.stale || state.rewritten) = false ↔
      ∀ test ∈ state.tests ++ [(marker, (state.mCb item).isNone)], test.1 = test.2 := by
    rw [Bool.or_eq_false_iff, recorded.tests, marks, bne_eq_false_iff_eq]
    constructor
    · rintro ⟨before, same⟩ test member
      rcases List.mem_append.mp member with old | new
      · exact before test old
      · rw [List.mem_singleton.mp new]
        exact same.symm
    · intro all
      refine ⟨fun test member => all test (List.mem_append_left _ member), ?_⟩
      exact (all _ (List.mem_append_right _ (List.mem_singleton_self _))).symm
  rw [shape]
  refine ⟨sound.queue, ?_, ?_, ⟨recorded.length, recorded.recorded, ?_, ?_, tests⟩, ?_, sound.producers⟩
  · refine owned.keeps (fun _ _ => id) (fun other holds => ?_)
    dsimp only at holds
    split at holds <;> cases holds
  · dsimp only
    split
    · rename_i isNone
      refine ⟨counted.count, fun _ => ?_, fun done => (nomatch (counted.freed done).2)⟩
      by_contra early
      have old := sound.unmarked (Bool.not_eq_true _ ▸ early)
      exact old.looked item (by rw [stands]; rfl) (Option.isNone_iff_eq_none.mp isNone)
    · exact ⟨counted.count, nofun, fun done => (nomatch (counted.freed done).2)⟩
  · intro fresh
    obtain ⟨fresh, same⟩ := Bool.or_eq_false_iff.mp fresh
    rw [marks, bne_eq_false_iff_eq] at same
    refine (recorded.handled fresh).trans (congrArg _ ?_)
    simp only [current, stands]
    rw [same]
    cases marker <;> rfl
  · dsimp only
    split <;> trivial
  · intro early
    have old := sound.unmarked early
    refine ⟨old.idle, old.within, old.stored, old.asked, old.got, fun other looked => ?_⟩
    dsimp only at looked
    split at looked <;> cases looked

theorem Sound.dispatch (sound : state.Sound) : state.dispatch.Sound := by
  have counted := sound.counted
  cases stands : state.dispatcher with
  | addRef =>
      rw [stands] at counted
      rw [QueueLife.dispatch, stands]
      refine sound.releases ⟨?_, nofun, fun done => (nomatch (counted.freed done).2)⟩ rfl ?_
      · exact congrArg (· + 1) counted.count
      · simp only [current, stands]
  | dequeue => exact sound.dequeue stands
  | readCb item =>
      rw [stands] at counted
      rw [QueueLife.dispatch, stands]
      simp only
      split
      · rename_i cb stored
        refine sound.looks (by rw [stands]; rfl) (by rw [stands]; rfl)
          ⟨counted.count, nofun, fun done => (nomatch (counted.freed done).2)⟩ ?_ (fun none_ => nomatch stored.symm.trans none_)
        simp only [current, stands]
      · rename_i stored
        refine sound.looks (by rw [stands]; rfl) (by rw [stands]; rfl)
          ⟨counted.count, nofun, fun done => (nomatch (counted.freed done).2)⟩ ?_ (congrArg Option.isNone stored)
        simp only [current, stands, stored]
  | callback item =>
      have marks := sound.recorded.marks
      rw [stands] at counted marks
      rw [QueueLife.dispatch, stands]
      obtain ⟨cb, stored⟩ := Option.ne_none_iff_exists'.mp marks
      refine sound.looks (by rw [stands]; rfl) (by rw [stands]; rfl)
        ⟨counted.count, nofun, fun done => (nomatch (counted.freed done).2)⟩ ?_ (congrArg Option.isNone stored)
      simp only [current, stands, stored, Option.toList_some, List.map_append, List.map_cons,
        List.map_nil, List.append_nil]
  | put item marker =>
      rw [QueueLife.dispatch, stands]
      exact sound.puts stands
  | testCb item marker => exact sound.tested stands
  | removeMarker =>
      rw [stands] at counted
      rw [QueueLife.dispatch, stands]
      have started := counted.left rfl
      refine sound.releases (counted.removes (fun _ => started) ?_ (nomatch ·.2) ?_) rfl ?_
      · rw [counted.count, started]
        simp only [Dispatching.refs, Dispatching.dropped]
        simp
      · intro one
        have count := counted.count
        rw [one, started] at count
        simp [Dispatching.refs, Dispatching.dropped] at count
      · simp only [current, stands]
  | removeRef =>
      rw [stands] at counted
      rw [QueueLife.dispatch, stands]
      have started := counted.left rfl
      refine sound.releases (counted.removes (fun _ => started) ?_ (nomatch ·.2) ?_) rfl ?_
      · rw [counted.count, started]
        simp [Dispatching.refs, Dispatching.dropped]
      · intro one
        have count := counted.count
        rw [one, started] at count
        refine ⟨?_, rfl⟩
        cases at_ : state.destroyer <;> rw [at_] at count started <;>
          simp [Dispatching.refs, Dispatching.dropped, Destroying.refs] at count started ⊢
      · simp only [current, stands]
  | finished =>
      rw [QueueLife.dispatch, stands]
      exact sound

theorem Sound.step (sound : state.Sound) (action : Action) : (step action state).Sound := by
  cases action with
  | enqueue thread cb => exact sound.enqueue thread cb
  | call thread => exact sound.call thread
  | destroy => exact sound.destroy
  | dispatch => exact sound.dispatch

theorem Sound.run (actions : List Action) {state : QueueLife} (sound : state.Sound) :
    (run actions state).Sound := by
  induction actions generalizing state with
  | nil => exact sound
  | cons action rest ih => exact ih (sound.step action)

end Steps

/-- The loop has been left at no test but that of the marker, and at that one; once it is
left the callbacks of all that was queued before the marker have run, each once; and the
queue is freed only when `sbfQueue_destroy` and `sbfQueue_dispatch` are done with it. -/
structure Correct (state : QueueLife) : Prop where
  exits : ∀ test ∈ state.tests, test.1 = test.2
  drained : state.dispatcher.left = true →
    ∃ later, state.queued = state.ran.map some ++ none :: later
  freed : state.freed = true → state.destroyer = .finished ∧ state.dispatcher = .finished

/-- In every run the loop, the callbacks and the freeing are right exactly when no test
has met an `mCb` that was stored, since `sbfPool_put`, in the place of one of the other
kind. -/
theorem run_correct_iff (memory : QueueItem → Option QueueItem) (mCb : Nat → Option Nat)
    (actions : List Action) :
    (run actions (create memory mCb)).Correct ↔
      (run actions (create memory mCb)).stale = false := by
  have sound := (create_sound memory mCb).run actions
  refine ⟨fun correct => sound.recorded.tests.mpr correct.exits, fun fresh => ?_⟩
  refine ⟨sound.recorded.tests.mp fresh, ?_, sound.counted.freed⟩
  intro left
  have handled := sound.recorded.handled fresh
  have marker : (run actions (create memory mCb)).current = [none] := by
    unfold current
    cases at_ : (run actions (create memory mCb)).dispatcher <;>
      simp [at_, Dispatching.left] at left ⊢
  rw [marker] at handled
  refine ⟨(run actions (create memory mCb)).queued.drop
    (run actions (create memory mCb)).queue.returned.length, ?_⟩
  calc (run actions (create memory mCb)).queued
      = (run actions (create memory mCb)).queued.take _ ++
          (run actions (create memory mCb)).queued.drop _ := (List.take_append_drop _ _).symm
    _ = _ := by rw [handled, List.append_assoc]; rfl

/-- Two callbacks are queued and one is called; before its item is tested the thread that
destroys the queue has got the item and stored `NULL` into it. -/
def leavesEarly : List Action :=
  [.dispatch, .enqueue 1 5, .enqueue 2 6] ++ List.replicate 7 (.call 1) ++
    List.replicate 7 (.call 2) ++ List.replicate 8 .dispatch ++ List.replicate 4 .destroy ++
    [.dispatch]

/-- The marker is dequeued; before it is tested another thread has got its item and stored
a callback into it. -/
def staysOn : List Action :=
  .dispatch :: List.replicate 9 .destroy ++ List.replicate 12 .dispatch ++
    [.enqueue 1 5, .call 1, .call 1, .dispatch]

theorem run_exits_wrongly :
    (∃ state, run leavesEarly (create (fun _ => none) (fun _ => none)) = state ∧
      state.dispatcher.left = true ∧ state.tests = [(false, true)] ∧
      state.queued = [some 5, some 6] ∧ state.ran = [5] ∧ ¬ state.Correct) ∧
    (∃ state, run staysOn (create (fun _ => none) (fun _ => none)) = state ∧
      state.dispatcher.left = false ∧ state.tests = [(true, false)] ∧ ¬ state.Correct) := by
  refine ⟨⟨_, rfl, rfl, rfl, rfl, rfl, ?_⟩, ⟨_, rfl, rfl, rfl, ?_⟩⟩
  · exact fun correct => nomatch correct.exits (false, true) List.mem_cons_self
  · exact fun correct => nomatch correct.exits (true, false) List.mem_cons_self

end QueueLife

end Sbf
