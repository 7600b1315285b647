import Sbf.QueueBlocking

set_option autoImplicit false

namespace Sbf

namespace Queue

/-- The thread has exchanged its item for the head and has not linked it. -/
def Linking (queue : Queue) (thread : Nat) : Prop :=
  ∃ item last, queue.producers thread = some (.link item last)

section Consume

variable {queue : Queue} {chain : List QueueItem}

/-- Nothing is behind an item without a link, or a producer is about to link it. -/
theorem Sound.broken (sound : queue.Sound chain) (own : queue.appending none = none)
    (open_ : queue.mNext queue.mTail = none) :
    chain = [queue.mTail] ∨ ∃ thread, queue.Linking thread := by
  obtain ⟨rest, rfl⟩ := sound.chain_eq
  rcases sound.chained.broken open_ with rfl | ⟨thread, item, links⟩
  · exact Or.inl rfl
  · cases thread with
    | none => cases own.symm.trans links
    | some thread => exact Or.inr ⟨thread, item, _, links⟩

theorem Sound.tail_eq_head {queue : Queue} (sound : queue.Sound [queue.mTail]) :
    queue.mTail = queue.mHead := Option.some.inj sound.chained.last

/-- The consumer comes to read the head when the item at `mTail` is the last, or a
producer is about to link the one behind it. -/
theorem Sound.consume_readHead (sound : queue.Sound chain) {tail : QueueItem}
    (comes : queue.consume.consumer = .readHead tail) :
    tail = queue.consume.mHead ∨ ∃ thread, queue.consume.Linking thread := by
  have reads : ∀ tail', queue.consumer = .readNext tail' ∨ queue.consumer = .readBehind tail' →
      tail' = queue.mTail → queue.mNext tail' = none →
      queue.consume = { queue with consumer := .readHead tail' } →
      tail = queue.consume.mHead ∨ ∃ thread, queue.consume.Linking thread := by
    intro tail' stands at_ open_ moved
    have own : queue.appending none = none := by
      rcases stands with stands | stands <;> rw [Queue.appending, stands]
    rw [moved] at comes ⊢
    cases comes
    subst at_
    rcases sound.broken own open_ with rfl | linking
    · exact Or.inl sound.tail_eq_head
    · exact Or.inr linking
  have known := sound.consumer
  rw [ConsumerSound] at known
  cases stands : queue.consumer with
  | readNext tail' =>
      rw [stands] at known
      cases open_ : queue.mNext tail' with
      | some next =>
          rw [Queue.consume, stands] at comes
          simp only [open_] at comes
          split at comes <;> cases comes
      | none =>
          refine reads tail' (Or.inl stands) known open_ ?_
          rw [Queue.consume, stands] at comes ⊢
          simp only [open_] at comes ⊢
          split at comes
          · cases comes
          · rename_i differs
            rw [if_neg differs]
  | readBehind tail' =>
      rw [stands] at known
      cases open_ : queue.mNext tail' with
      | some next =>
          rw [Queue.consume, stands] at comes
          simp only [open_] at comes
          cases comes
      | none =>
          refine reads tail' (Or.inr stands) known.1 open_ ?_
          rw [Queue.consume, stands]
          simp only [open_]
  | insertEmpty tail' appending =>
      rw [Queue.consume, stands] at comes
      cases appending <;> cases comes
  | readHead tail' =>
      rw [Queue.consume, stands] at comes
      simp only at comes
      split at comes <;> cases comes
  | readAgain tail' =>
      rw [Queue.consume, stands] at comes
      simp only at comes
      split at comes <;> cases comes
  | _ =>
      rw [Queue.consume, stands] at comes
      cases comes

/-- A call returns nothing when there is nothing, or a producer is about to link an item,
or the head has changed since the consumer found no link. -/
theorem Sound.consume_nothing (sound : queue.Sound chain)
    (calls : ∀ item, queue.consumer ≠ .returned item)
    (comes : queue.consume.consumer = .returned none) :
    queue.consume.pending = [] ∨ (∃ thread, queue.consume.Linking thread) ∨
      ∃ tail, queue.consumer = .readHead tail ∧ tail ≠ queue.mHead := by
  have known := sound.consumer
  rw [ConsumerSound] at known
  cases stands : queue.consumer with
  | returned item => exact absurd stands (calls item)
  | readNext tail =>
      have own : queue.appending none = none := by rw [Queue.appending, stands]
      rw [stands] at known
      obtain rfl := known
      rw [Queue.consume, stands] at comes ⊢
      simp only at comes ⊢
      split at comes
      · rename_i stub
        rw [if_pos stub]
        cases open_ : queue.mNext queue.mTail with
        | some next =>
            rw [open_] at comes
            cases comes
        | none =>
            rcases sound.broken own open_ with rfl | linking
            · refine Or.inl ?_
              have none_pending := sound.pending_eq
              rw [stub] at none_pending
              exact none_pending
            · exact Or.inr (Or.inl linking)
      · split at comes <;> cases comes
  | readHead tail =>
      refine Or.inr (Or.inr ⟨tail, rfl, ?_⟩)
      rw [Queue.consume, stands] at comes
      simp only at comes
      split at comes
      · assumption
      · cases comes
  | readAgain tail =>
      have own : queue.appending none = none := by rw [Queue.appending, stands]
      rw [stands] at known
      obtain ⟨rfl, _, later⟩ := known
      rw [Queue.consume, stands] at comes ⊢
      simp only at comes ⊢
      cases open_ : queue.mNext queue.mTail with
      | some next =>
          rw [open_] at comes
          cases comes
      | none =>
          rcases sound.broken own open_ with rfl | linking
          · exact absurd sound.tail_eq_head later
          · exact Or.inr (Or.inl linking)
  | insertEmpty tail appending =>
      rw [Queue.consume, stands] at comes
      cases appending <;> cases comes
  | readBehind tail =>
      rw [Queue.consume, stands] at comes
      simp only at comes
      split at comes <;> cases comes
  | _ =>
      rw [Queue.consume, stands] at comes
      cases comes

end Consume

theorem enqueue_cases (queue : Queue) (thread address : Nat) :
    queue.enqueue thread address = queue ∨
      (queue.producers thread = none ∧ queue.enqueue thread address = { queue with
        producers := Function.update queue.producers thread (some (.clear (.item address)))
        inside := Function.update queue.inside address true }) := by
  unfold enqueue
  split
  · rename_i free
    exact Or.inr ⟨free.1, rfl⟩
  · exact Or.inl rfl

/-- A producer's step before its exchange changes nothing that others look at. -/
theorem produce_clear {queue : Queue} {thread : Nat} {item : QueueItem}
    (stands : queue.producers thread = some (.clear item)) :
    queue.produce thread = { queue with
      mNext := Function.update queue.mNext item none
      producers := Function.update queue.producers thread (some (.exchange item)) } := by
  rw [produce, stands]
  rfl

theorem produce_exchange {queue : Queue} {thread : Nat} {item : QueueItem}
    (stands : queue.producers thread = some (.exchange item)) :
    (queue.produce thread).consumer = queue.consumer ∧ (queue.produce thread).Linking thread := by
  rw [produce, stands]
  exact ⟨rfl, item, queue.mHead, Function.update_self _ _ _⟩

end Queue

/-- In the loop of `sbfQueueDequeue` that waits. -/
def Dispatcher.blocks : Dispatcher → Bool
  | .nextFirst | .setWaiting | .nextSecond | .clearWaiting | .futexWait | .asleep => true
  | _ => false

/-- `sbfQueueNext` is not running. -/
def Dispatcher.between : Dispatcher → Bool
  | .nextOnce | .nextFirst | .nextSecond => false
  | _ => true

namespace BlockingQueue

/-- Some thread has put an item into the queue and has yet to look at the flag. -/
def Busy (state : BlockingQueue) : Prop :=
  ∃ thread, state.queue.Linking thread ∨ state.checks thread = .readBlocking ∨
    state.checks thread = .swapWaiting

/-- What the consumer does not see when it goes to sleep some thread will wake it for. -/
def Watched (state : BlockingQueue) : Prop :=
  match state.dispatcher with
  | .nextSecond =>
      (∀ tail, state.queue.consumer = .readHead tail → tail ≠ state.queue.mHead → state.Busy) ∧
        (state.queue.consumer = .returned none → state.queue.pending ≠ [] → state.Busy)
  | .futexWait | .asleep => state.queue.pending ≠ [] → state.Busy
  | _ => True

structure Sound (state : BlockingQueue) : Prop where
  queue : ∃ chain, state.queue.Sound chain
  between : state.dispatcher.between = true → state.queue.appending none = none
  blocks : state.dispatcher.blocks = true →
    state.nonblock = false ∧ (state.created = false ↔ state.mHiResTimers.entries = [])
  watched : state.mWaiting = 1 → state.created = false → state.Watched
  woken : state.dispatcher = .asleep → state.mWaiting ≠ 1 →
    ∃ thread, state.checks thread = .futexWake

theorem create_sound (nonblock : Bool) (memory : QueueItem → Option QueueItem) :
    (create nonblock memory).Sound where
  queue := ⟨_, Queue.create_sound memory⟩
  between _ := rfl
  blocks := nofun
  watched := nofun
  woken := nofun

section Steps

variable {state after : BlockingQueue}

theorem Busy.of_linking {thread : Nat} (linking : state.queue.Linking thread) : state.Busy :=
  ⟨thread, Or.inl linking⟩

theorem Watched.of_open (open_ : state.dispatcher.blocks = false) : state.Watched := by
  unfold Watched
  split <;> rename_i shape
  · rw [shape] at open_
    cases open_
  · rw [shape] at open_
    cases open_
  · rw [shape] at open_
    cases open_
  · trivial

/-- Nothing that the consumer looks at changes, or some thread is busy. -/
theorem Watched.keeps (watched : state.Watched) (dispatcher : after.dispatcher = state.dispatcher)
    (consumer : after.queue.consumer = state.queue.consumer)
    (rest : after.Busy ∨ ((state.Busy → after.Busy) ∧ after.queue.mHead = state.queue.mHead ∧
      after.queue.pending = state.queue.pending)) : after.Watched := by
  unfold Watched at watched ⊢
  rw [dispatcher, consumer]
  rcases rest with busy | ⟨busy, head, pending⟩
  · split
    · exact ⟨fun _ _ _ => busy, fun _ _ => busy⟩
    · exact fun _ => busy
    · exact fun _ => busy
    · trivial
  · rw [head, pending]
    split <;> rename_i shape <;> simp only [shape] at watched
    · exact ⟨fun tail reads differs => busy (watched.1 tail reads differs),
        fun nothing some_items => busy (watched.2 nothing some_items)⟩
    · exact fun some_items => busy (watched some_items)
    · exact fun some_items => busy (watched some_items)
    · trivial

theorem Sound.enqueue (sound : state.Sound) (thread address : Nat) :
    (state.enqueue thread address).Sound := by
  unfold BlockingQueue.enqueue
  split
  · obtain ⟨chain, queue⟩ := sound.queue
    rcases state.queue.enqueue_cases thread address with same | ⟨idle, shape⟩
    · rw [same]
      exact sound
    · refine ⟨⟨chain, queue.enqueue thread address⟩, ?_, sound.blocks, ?_, sound.woken⟩
      · rw [shape]
        exact sound.between
      · intro waits fresh
        refine (sound.watched waits fresh).keeps rfl (by rw [shape]) (Or.inr ⟨?_, by rw [shape], ?_⟩)
        · rintro ⟨other, ⟨item, last, links⟩ | checks⟩
          · have differs : other ≠ thread := by
              rintro rfl
              cases idle.symm.trans links
            refine ⟨other, Or.inl ⟨item, last, ?_⟩⟩
            rw [shape]
            exact (Function.update_of_ne differs _ _).trans links
          · exact ⟨other, Or.inr checks⟩
        · rw [shape]
          rfl
  · exact sound

/-- A step of `sbfQueueEnqueue1` by a producer. -/
theorem Sound.appends (sound : state.Sound) {thread : Nat} {appending : Appending QueueItem}
    (stands : state.queue.producers thread = some appending) (quiet : appending.linking = false) :
    Sound { state with queue := state.queue.produce thread } := by
  obtain ⟨chain, queue⟩ := sound.queue
  refine ⟨⟨_, queue.produce thread⟩, ?_, sound.blocks, ?_, sound.woken⟩
  · cases appending with
    | clear item =>
        rw [Queue.produce_clear stands]
        exact sound.between
    | exchange item =>
        intro between
        have own := sound.between between
        rw [Queue.appending] at own ⊢
        rw [(Queue.produce_exchange stands).1]
        exact own
    | link item last => cases quiet
  · intro waits fresh
    have watched := sound.watched waits fresh
    cases appending with
    | clear item =>
        rw [Queue.produce_clear stands]
        refine watched.keeps rfl rfl (Or.inr ⟨?_, rfl, rfl⟩)
        rintro ⟨other, ⟨item', last, links⟩ | checks⟩
        · have differs : other ≠ thread := by
            rintro rfl
            cases stands.symm.trans links
          exact ⟨other, Or.inl ⟨item', last, (Function.update_of_ne differs _ _).trans links⟩⟩
        · exact ⟨other, Or.inr checks⟩
    | exchange item =>
        obtain ⟨consumer, linking⟩ := Queue.produce_exchange stands
        exact watched.keeps rfl consumer (Or.inl (Busy.of_linking linking))
    | link item last => cases quiet

/-- The link of a producer's item, after which the producer is to look at the flag. -/
theorem Sound.links (sound : state.Sound) {thread : Nat} {item last : QueueItem}
    (idle : state.checks thread = .idle)
    (stands : state.queue.producers thread = some (.link item last)) :
    Sound { state with
      queue := state.queue.produce thread
      checks := Function.update state.checks thread .readBlocking } := by
  obtain ⟨chain, queue⟩ := sound.queue
  have consumer : (state.queue.produce thread).consumer = state.queue.consumer := by
    rw [Queue.produce, stands]
    rfl
  refine ⟨⟨_, queue.produce thread⟩, ?_, sound.blocks, ?_, ?_⟩
  · intro between
    have own := sound.between between
    rw [Queue.appending] at own ⊢
    rw [consumer]
    exact own
  · intro waits fresh
    exact (sound.watched waits fresh).keeps rfl consumer
      (Or.inl ⟨thread, Or.inr (Or.inl (Function.update_self _ _ _))⟩)
  · intro asleep clear
    obtain ⟨other, wakes⟩ := sound.woken asleep clear
    have differs : other ≠ thread := by
      rintro rfl
      cases idle.symm.trans wakes
    exact ⟨other, (Function.update_of_ne differs _ _).trans wakes⟩

/-- The check of a producer: the flag, then the swap. -/
theorem Sound.checks (sound : state.Sound) {thread : Nat} {before : WakeCheck}
    (stands : state.checks thread = before) (asks : before ≠ .futexWake)
    {mWaiting : Nat} {next : WakeCheck} (flag : mWaiting = state.mWaiting ∨ next = .futexWake)
    (busy : mWaiting = 1 → state.dispatcher.blocks = true → state.created = false →
      next = .swapWaiting) :
    Sound { state with
      mWaiting := mWaiting
      checks := Function.update state.checks thread next } := by
  refine ⟨sound.queue, sound.between, sound.blocks, ?_, ?_⟩
  · intro waits fresh
    cases open_ : state.dispatcher.blocks with
    | false => exact Watched.of_open open_
    | true =>
        have swaps := busy waits open_ fresh
        have same : mWaiting = state.mWaiting := by
          rcases flag with same | wakes
          · exact same
          · cases swaps.symm.trans wakes
        refine (sound.watched (same ▸ waits) fresh).keeps rfl rfl (Or.inl ⟨thread, ?_⟩)
        exact Or.inr (Or.inr (by simp only [Function.update_self, swaps]))
  · intro asleep clear
    by_cases wakes : next = .futexWake
    · exact ⟨thread, by simp only [Function.update_self, wakes]⟩
    · have same : mWaiting = state.mWaiting := flag.resolve_right wakes
      obtain ⟨other, waker⟩ := sound.woken asleep (same ▸ clear)
      have differs : other ≠ thread := by
        rintro rfl
        exact asks (stands.symm.trans waker)
      exact ⟨other, (Function.update_of_ne differs _ _).trans waker⟩

/-- The dispatch thread calls `sbfQueueNext`. -/
theorem Sound.calls (sound : state.Sound) (queue : after.queue = state.queue.callNext)
    (own : state.queue.appending none = none) (between : after.dispatcher.between = false)
    (blocks : after.dispatcher.blocks = true →
      after.nonblock = false ∧ (after.created = false ↔ after.mHiResTimers.entries = [])) :
    after.Sound := by
  obtain ⟨chain, old⟩ := sound.queue
  have calls : after.queue.Sound chain := by
    rw [queue]
    exact old.moves own rfl rfl
  have reads : after.queue.consumer = .readNext state.queue.mTail := by rw [queue]; rfl
  refine ⟨⟨chain, calls⟩, ?_, blocks, ?_, ?_⟩
  · intro between'
    cases between.symm.trans between'
  · intro waits fresh
    unfold Watched
    split <;> rename_i shape
    · rw [reads]
      exact ⟨nofun, nofun⟩
    · rw [shape] at between
      cases between
    · rw [shape] at between
      cases between
    · trivial
  · intro asleep
    rw [asleep] at between
    cases between

theorem Sound.produce (sound : state.Sound) (thread : Nat) : (state.produce thread).Sound := by
  unfold BlockingQueue.produce
  split
  · rename_i idle
    split
    · exact sound
    · rename_i stands
      exact sound.links idle stands
    · rename_i appending appends stands
      refine sound.appends stands ?_
      cases appending with
      | link item last => exact absurd rfl (appends item last)
      | _ => rfl
  · rename_i stands
    refine sound.checks stands nofun (Or.inl rfl) ?_
    intro _ blocks fresh
    obtain ⟨nonblock, timers⟩ := sound.blocks blocks
    rw [if_pos]
    rw [blocking, nonblock, timers.mp fresh]
    rfl
  · rename_i stands
    split
    · refine sound.checks stands nofun (Or.inr rfl) nofun
    · rename_i clear
      exact sound.checks stands nofun (Or.inl rfl) (fun waits => absurd waits clear)
  · rename_i stands
    split
    · rename_i asleep
      refine sound.calls rfl (sound.between (by rw [asleep]; rfl)) rfl ?_
      intro _
      exact sound.blocks (by rw [asleep]; rfl)
    · rename_i awake
      refine ⟨sound.queue, sound.between, sound.blocks, ?_, fun asleep => absurd asleep awake⟩
      intro waits fresh
      refine (sound.watched waits fresh).keeps rfl rfl (Or.inr ⟨?_, rfl, rfl⟩)
      rintro ⟨other, linking | checks⟩
      · exact ⟨other, Or.inl linking⟩
      · have differs : other ≠ thread := by
          rintro rfl
          rw [stands] at checks
          rcases checks with checks | checks <;> cases checks
        have same : Function.update state.checks thread .idle other = state.checks other :=
          Function.update_of_ne differs _ _
        exact ⟨other, Or.inr (checks.imp same.trans same.trans)⟩

/-- The dispatch thread moves on outside `sbfQueueDequeue`. -/
theorem Sound.of_outside (queue : ∃ chain, after.queue.Sound chain)
    (own : after.queue.appending none = none) (outside : after.dispatcher.blocks = false) :
    after.Sound where
  queue := queue
  between _ := own
  blocks blocks := by cases outside.symm.trans blocks
  watched _ _ := Watched.of_open outside
  woken asleep := by rw [asleep] at outside; cases outside

theorem Sound.queueDispatch (sound : state.Sound) (now item : Nat)
    (between : state.dispatcher.between = true) : (state.queueDispatch now item).Sound := by
  have own := sound.between between
  obtain ⟨chain, queue⟩ := sound.queue
  unfold BlockingQueue.queueDispatch
  split
  · split
    · exact Sound.of_outside ⟨chain, queue⟩ own rfl
    · split
      · exact Sound.of_outside ⟨chain, queue⟩ own rfl
      · exact Sound.of_outside ⟨chain, queue⟩ own rfl
  · split
    · exact sound
    · split
      · exact Sound.of_outside ⟨chain, queue⟩ own rfl
      · split
        · refine Sound.of_outside ⟨chain, queue.enqueue 0 item⟩ ?_ rfl
          rcases state.queue.enqueue_cases 0 item with same | ⟨_, shape⟩
          · rw [same]
            exact own
          · rw [shape]
            exact own
        · exact sound
  · split
    · exact sound
    · split
      · exact Sound.of_outside ⟨chain, queue⟩ own rfl
      · exact sound
  · exact sound

/-- A step of `sbfQueueNext` in a call of which the loop of `sbfQueueDequeue` makes. -/
theorem Sound.consumes (sound : state.Sound) (running : state.dispatcher.between = false)
    (calls : ∀ item, state.queue.consumer ≠ .returned item) :
    Sound { state with queue := state.queue.consume } := by
  obtain ⟨chain, queue⟩ := sound.queue
  have producers := state.queue.consume_producers
  have busy : state.Busy → Busy { state with queue := state.queue.consume } := by
    rintro ⟨thread, ⟨item, last, links⟩ | checks⟩
    · exact ⟨thread, Or.inl ⟨item, last, by rw [producers, links]⟩⟩
    · exact ⟨thread, Or.inr checks⟩
  refine ⟨queue.consume, ?_, sound.blocks, ?_, sound.woken⟩
  · intro between
    cases running.symm.trans between
  · intro waits fresh
    have watched := sound.watched waits fresh
    unfold Watched at watched ⊢
    split <;> rename_i shape
    · have shape' : state.dispatcher = .nextSecond := shape
      simp only [shape'] at watched
      refine ⟨?_, ?_⟩
      · intro tail reads differs
        rcases queue.consume_readHead reads with same | ⟨thread, linking⟩
        · exact absurd same differs
        · exact Busy.of_linking linking
      · intro nothing some_items
        rcases queue.consume_nothing calls nothing with empty | ⟨thread, linking⟩ | ⟨tail, reads, head⟩
        · exact absurd empty some_items
        · exact Busy.of_linking linking
        · exact busy (watched.1 tail reads head)
    · cases (congrArg Dispatcher.between shape).symm.trans running
    · cases (congrArg Dispatcher.between shape).symm.trans running
    · trivial

/-- A call that has not returned goes on. -/
theorem Sound.consumesOn (sound : state.Sound) (running : state.dispatcher.between = false)
    (nothing : state.queue.consumer ≠ .returned none)
    (some_item : ∀ item, state.queue.consumer ≠ .returned (some item)) :
    Sound { state with queue := state.queue.consume } := by
  apply sound.consumes running
  intro item
  cases item with
  | none => exact nothing
  | some found => exact some_item found

/-- After a call the consumer has nothing half done. -/
theorem own_of_returned {item : Option QueueItem} (over_ : state.queue.consumer = .returned item) :
    state.queue.appending none = none := by
  rw [Queue.appending, over_]

theorem Sound.dispatch (sound : state.Sound) (now item : Nat) : (state.dispatch now item).Sound := by
  obtain ⟨chain, queue⟩ := sound.queue
  cases stands : state.dispatcher with
  | callback =>
      have own := sound.between (by rw [stands]; rfl)
      simp only [BlockingQueue.dispatch, stands]
      split
      · exact Sound.of_outside ⟨chain, queue⟩ own rfl
      · exact sound
  | readTimers =>
      simp only [BlockingQueue.dispatch, stands]
      exact sound.queueDispatch now item (by rw [stands]; rfl)
  | enqueueTimer read address =>
      simp only [BlockingQueue.dispatch, stands]
      exact sound.queueDispatch now item (by rw [stands]; rfl)
  | insertTimer read address =>
      simp only [BlockingQueue.dispatch, stands]
      exact sound.queueDispatch now item (by rw [stands]; rfl)
  | readBlocking =>
      have own := sound.between (by rw [stands]; rfl)
      simp only [BlockingQueue.dispatch, stands]
      split
      · rename_i blocks
        refine sound.calls rfl own rfl (fun _ => ?_)
        simp only [blocking, Bool.and_eq_true, Bool.not_eq_true', List.isEmpty_iff] at blocks
        exact ⟨blocks.1, iff_of_true rfl blocks.2⟩
      · exact sound.calls rfl own rfl nofun
  | nextOnce =>
      simp only [BlockingQueue.dispatch, stands]
      split
      · rename_i over_
        exact Sound.of_outside ⟨chain, queue⟩ (own_of_returned over_) rfl
      · rename_i over_
        exact Sound.of_outside ⟨chain, queue⟩ (own_of_returned over_) rfl
      · rename_i some_item nothing
        have moved := sound.consumesOn (by rw [stands]; rfl) nothing some_item
        rwa [stands] at moved
  | nextFirst =>
      simp only [BlockingQueue.dispatch, stands]
      split
      · rename_i over_
        exact Sound.of_outside ⟨chain, queue⟩ (own_of_returned over_) rfl
      · rename_i over_
        refine ⟨⟨chain, queue⟩, fun _ => own_of_returned over_, ?_, fun _ _ => trivial, nofun⟩
        exact fun _ => sound.blocks (by rw [stands]; rfl)
      · rename_i some_item nothing
        have moved := sound.consumesOn (by rw [stands]; rfl) nothing some_item
        rwa [stands] at moved
  | setWaiting =>
      have own := sound.between (by rw [stands]; rfl)
      simp only [BlockingQueue.dispatch, stands]
      exact sound.calls rfl own rfl (fun _ => sound.blocks (by rw [stands]; rfl))
  | nextSecond =>
      have blocks := sound.blocks (by rw [stands]; rfl)
      simp only [BlockingQueue.dispatch, stands]
      split
      · rename_i over_
        exact ⟨⟨chain, queue⟩, fun _ => own_of_returned over_, fun _ => blocks, fun _ _ => trivial, nofun⟩
      · rename_i over_
        refine ⟨⟨chain, queue⟩, fun _ => own_of_returned over_, fun _ => blocks, ?_, nofun⟩
        intro waits fresh
        have watched := sound.watched waits fresh
        simp only [Watched, stands] at watched
        exact watched.2 over_
      · rename_i some_item nothing
        have moved := sound.consumesOn (by rw [stands]; rfl) nothing some_item
        rwa [stands] at moved
  | clearWaiting =>
      have own := sound.between (by rw [stands]; rfl)
      simp only [BlockingQueue.dispatch, stands]
      exact Sound.of_outside ⟨chain, queue⟩ own rfl
  | futexWait =>
      have own := sound.between (by rw [stands]; rfl)
      have blocks := sound.blocks (by rw [stands]; rfl)
      simp only [BlockingQueue.dispatch, stands]
      split
      · rename_i waits
        refine ⟨⟨chain, queue⟩, fun _ => own, fun _ => blocks, ?_, fun _ clear => absurd waits clear⟩
        intro _ fresh
        have watched := sound.watched waits fresh
        simp only [Watched, stands] at watched
        exact watched
      · exact sound.calls rfl own rfl (fun _ => blocks)
  | asleep =>
      simp only [BlockingQueue.dispatch, stands]
      exact sound

theorem Sound.interrupt (sound : state.Sound) : state.interrupt.Sound := by
  unfold BlockingQueue.interrupt
  split
  · rename_i asleep
    refine ⟨sound.queue, fun _ => sound.between (by rw [asleep]; rfl),
      fun _ => sound.blocks (by rw [asleep]; rfl), ?_, nofun⟩
    intro waits fresh
    have watched := sound.watched waits fresh
    simp only [Watched, asleep] at watched
    exact watched
  · exact sound

theorem insert_ne_nil (tree : RbTree Nat Nat) (key address : Nat) :
    (tree.insert key address).entries ≠ [] := by
  intro empty
  have absent : (tree.insert key address).find key = none := by
    rw [RbTree.find, empty]
    rfl
  unfold RbTree.insert at absent
  split at absent
  · rename_i there
    rw [absent] at there
    cases there
  · rw [RbTree.find_set_self] at absent
    cases absent

theorem Sound.createTimer (sound : state.Sound) (now mTicks : Nat) :
    (state.createTimer now mTicks).Sound where
  queue := sound.queue
  between := sound.between
  blocks blocks := ⟨(sound.blocks blocks).1, iff_of_false nofun (insert_ne_nil _ _ _)⟩
  watched _ fresh := nomatch fresh
  woken := sound.woken

theorem Sound.destroyTimer (sound : state.Sound) (address : Nat) :
    (state.destroyTimer address).Sound := by
  unfold BlockingQueue.destroyTimer
  split
  · exact sound
  · exact ⟨sound.queue, sound.between, sound.blocks, sound.watched, sound.woken⟩

end Steps

theorem Sound.step {state : BlockingQueue} (sound : state.Sound) (action : Action) :
    (step action state).Sound := by
  cases action with
  | enqueue thread address => exact sound.enqueue thread address
  | produce thread => exact sound.produce thread
  | dispatch now item => exact sound.dispatch now item
  | interrupt => exact sound.interrupt
  | createTimer now mTicks => exact sound.createTimer now mTicks
  | destroyTimer address => exact sound.destroyTimer address

theorem Sound.run (actions : List Action) {state : BlockingQueue} (sound : state.Sound) :
    (run actions state).Sound := by
  induction actions generalizing state with
  | nil => exact sound
  | cons action rest ih => exact ih (sound.step action)

/-- No producer is between its exchange and the end of its check of the flag. -/
def Settled (state : BlockingQueue) : Prop :=
  ∀ thread, ¬ state.queue.Linking thread ∧ state.checks thread = .idle

/-- In every state of every run in which the dispatch thread sleeps and no producer is
still on the way to wake it, nothing waits for it, neither an item nor a timer, exactly
when no timer was created since it read `SBF_QUEUE_BLOCKING`. -/
theorem asleep_empty_iff (nonblock : Bool) (memory : QueueItem → Option QueueItem)
    (actions : List Action)
    (asleep : (run actions (create nonblock memory)).dispatcher = .asleep)
    (settled : (run actions (create nonblock memory)).Settled) :
    ((run actions (create nonblock memory)).queue.pending = [] ∧
        (run actions (create nonblock memory)).mHiResTimers.entries = []) ↔
      (run actions (create nonblock memory)).created = false := by
  have sound := (create_sound nonblock memory).run actions
  have blocks := sound.blocks (by rw [asleep]; rfl)
  rw [← blocks.2]
  refine ⟨And.right, fun fresh => ⟨?_, fresh⟩⟩
  have waits : (run actions (create nonblock memory)).mWaiting = 1 := by
    by_contra clear
    obtain ⟨thread, wakes⟩ := sound.woken asleep clear
    cases (settled thread).2.symm.trans wakes
  have watched := sound.watched waits fresh
  simp only [Watched, asleep] at watched
  by_contra some_items
  obtain ⟨thread, linking | checks | checks⟩ := watched some_items
  · exact (settled thread).1 linking
  · cases (settled thread).2.symm.trans checks
  · cases (settled thread).2.symm.trans checks

/-- A timer is created and destroyed, an item is enqueued, and the dispatch thread takes both before
it goes to sleep. -/
def drained : List Action :=
  .createTimer 0 5 :: .destroyTimer 0 :: .enqueue 1 8 :: List.replicate 4 (.produce 1) ++
    List.replicate 23 (.dispatch 9 1)

theorem drained_settled (more : List Action)
    (checks : (run (drained ++ more) (create false fun _ => none)).checks =
      (run drained (create false fun _ => none)).checks)
    (producers : (run (drained ++ more) (create false fun _ => none)).queue.producers =
      (run drained (create false fun _ => none)).queue.producers) :
    (run (drained ++ more) (create false fun _ => none)).Settled := by
  intro thread
  rw [Queue.Linking, checks, producers]
  rcases thread with _ | _ | thread <;> exact ⟨nofun, rfl⟩

/-- Then nothing waits, and with one more timer it does. -/
theorem asleep_empty_drained :
    (run drained (create false fun _ => none)).queue.returned = [.item 8] ∧
      ((run drained (create false fun _ => none)).queue.pending = [] ∧
        (run drained (create false fun _ => none)).mHiResTimers.entries = []) ∧
      ¬ ((run (drained ++ [.createTimer 9 5]) (create false fun _ => none)).queue.pending = [] ∧
        (run (drained ++ [.createTimer 9 5]) (create false fun _ => none)).mHiResTimers.entries =
          []) := by
  refine ⟨rfl, ?_, ?_⟩
  · exact (asleep_empty_iff false (fun _ => none) drained rfl (drained_settled [] rfl rfl)).mpr rfl
  · rw [asleep_empty_iff false (fun _ => none) _ rfl (drained_settled [.createTimer 9 5] rfl rfl)]
    exact Bool.noConfusion

/-- A dispatch thread that finds nothing goes to sleep. -/
def fallAsleep : List Action := List.replicate 7 (.dispatch 0 0)

/-- A timer does not wake the thread, and once it is there neither does an item. -/
theorem asleep_timer :
    (run (fallAsleep ++ [.createTimer 0 5]) (create false fun _ => none)).dispatcher = .asleep ∧
      (run (fallAsleep ++ [.createTimer 0 5]) (create false fun _ => none)).Settled ∧
      (run (fallAsleep ++ [.createTimer 0 5]) (create false fun _ => none)).mHiResTimers.entries =
        [(5, 0)] ∧
      let enqueued := run (fallAsleep ++ [.createTimer 0 5] ++
        (.enqueue 1 8 :: List.replicate 4 (.produce 1))) (create false fun _ => none)
      enqueued.dispatcher = .asleep ∧ enqueued.Settled ∧ enqueued.queue.pending = [.item 8] := by
  refine ⟨rfl, fun _ => ⟨nofun, rfl⟩, rfl, rfl, ?_, rfl⟩
  rintro (_ | _ | thread) <;> exact ⟨nofun, rfl⟩

end BlockingQueue

end Sbf
