import Mathlib.Data.List.Perm.Basic
import Sbf.QueueExit

set_option autoImplicit false

/-! What is put back to the pool when a queue is destroyed. -/

namespace Sbf

namespace Queue

/-- The loop of `sbfQueueDestroy` from an item on, by the items that it puts; nothing when
it does not end. -/
def destroyLoop (mNext : QueueItem → Option QueueItem) : Nat → Option QueueItem → Option (List Nat)
  | 0, _ => none
  | _ + 1, none => some []
  | _ + 1, some .mEmpty => some []
  | fuel + 1, some (.item address) =>
      (destroyLoop mNext fuel (mNext (.item address))).map (address :: ·)

/-- `sbfQueueDestroy` ends, and puts these items. -/
def Puts (queue : Queue) (puts : List Nat) : Prop :=
  ∃ fuel, destroyLoop queue.mNext fuel (some queue.mHead) = some puts

/-- The item of the head, if it is one. -/
def headItems : QueueItem → List Nat
  | .mEmpty => []
  | .item address => [address]

section Drain

variable {queue : Queue} {chain : List QueueItem}

/-- The loop starts where the items end: nothing is linked behind the head. -/
theorem Sound.puts_iff (sound : queue.Sound chain) (puts : List Nat) :
    queue.Puts puts ↔ puts = headItems queue.mHead := by
  have ends : queue.mNext queue.mHead = none := sound.chained.ends
  unfold Puts
  cases head : queue.mHead with
  | mEmpty =>
      constructor
      · rintro ⟨fuel, run⟩
        cases fuel with
        | zero => cases run
        | succ fuel => exact (Option.some.inj run).symm
      · rintro rfl
        exact ⟨1, rfl⟩
  | item address =>
      rw [head] at ends
      constructor
      · rintro ⟨fuel, run⟩
        match fuel with
        | 0 => cases run
        | 1 =>
            rw [destroyLoop, destroyLoop] at run
            cases run
        | fuel + 2 =>
            rw [destroyLoop, ends, destroyLoop] at run
            exact (Option.some.inj run).symm
      · rintro rfl
        refine ⟨2, ?_⟩
        rw [destroyLoop, ends, destroyLoop]
        rfl

theorem Sound.drains_iff (sound : queue.Sound chain) :
    (∃ puts, queue.Puts puts ∧ (puts.map QueueItem.item).Perm queue.pending) ↔
      queue.pending = [] ∨ queue.pending = [queue.mHead] := by
  have only : (∃ puts, queue.Puts puts ∧ (puts.map QueueItem.item).Perm queue.pending) ↔
      ((headItems queue.mHead).map QueueItem.item).Perm queue.pending := by
    constructor
    · rintro ⟨puts, run, all⟩
      rwa [(sound.puts_iff puts).mp run] at all
    · exact fun all => ⟨_, (sound.puts_iff _).mpr rfl, all⟩
  have member : queue.mHead ∈ chain := sound.chained.head_mem
  rw [only]
  cases head : queue.mHead with
  | mEmpty =>
      have apart : queue.pending ≠ [.mEmpty] := by
        intro same
        have inside : QueueItem.mEmpty ∈ chain.filter (· ≠ .mEmpty) := by
          rw [← sound.pending_eq, same]
          exact List.mem_cons_self
        exact absurd (List.mem_filter.mp inside).2 (by decide)
      rw [or_iff_left apart]
      exact List.nil_perm
  | item address =>
      have some_ : queue.pending ≠ [] := by
        intro nothing
        rw [sound.pending_eq, List.filter_eq_nil_iff] at nothing
        have here := nothing _ (head ▸ member)
        exact here (decide_eq_true nofun)
      rw [or_iff_right some_]
      change [QueueItem.item address].Perm queue.pending ↔ _
      rw [List.singleton_perm, eq_comm]

end Drain

/-- A thread has the item, and has not put it into the list yet. -/
def Brought (queue : Queue) (address : Nat) : Prop :=
  ∃ thread, queue.producers thread = some (.clear (.item address)) ∨
    queue.producers thread = some (.exchange (.item address))

/-- An item of which a call began is in the list, or a thread has it. -/
def Placed (queue : Queue) : Prop :=
  ∀ address, queue.inside address = true → .item address ∈ queue.pending ∨ queue.Brought address

section Placed

variable {queue : Queue} {chain : List QueueItem}

theorem Brought.other {after : Queue} {address thread : Nat} (brought : queue.Brought address)
    (frame : ∀ other, other ≠ thread → after.producers other = queue.producers other)
    (own : ∀ appending, queue.producers thread = some appending →
      (appending = .clear (.item address) ∨ appending = .exchange (.item address)) →
        .item address ∈ after.pending ∨ after.Brought address) :
    .item address ∈ after.pending ∨ after.Brought address := by
  obtain ⟨who, stands⟩ := brought
  by_cases here : who = thread
  · subst here
    rcases stands with stands | stands
    · exact own _ stands (Or.inl rfl)
    · exact own _ stands (Or.inr rfl)
  · refine Or.inr ⟨who, ?_⟩
    rw [frame who here]
    exact stands

theorem Placed.enqueue (placed : queue.Placed) (thread address : Nat) :
    (queue.enqueue thread address).Placed := by
  unfold Queue.enqueue
  split
  case isFalse => exact placed
  case isTrue free =>
      intro other inside
      by_cases here : other = address
      · subst here
        exact Or.inr ⟨thread, Or.inl (Function.update_self ..)⟩
      · have before : queue.inside other = true :=
          (Function.update_of_ne here _ _).symm.trans inside
        cases placed other before with
        | inl member => exact Or.inl member
        | inr brought =>
            refine brought.other (fun who apart => Function.update_of_ne apart _ _) ?_
            intro appending stands
            rw [free.1] at stands
            cases stands

theorem Sound.length_le (sound : queue.Sound chain) :
    queue.returned.length ≤ queue.exchanged.length := by
  have items := congrArg List.length sound.items
  rw [List.length_map, List.length_append] at items
  omega

theorem Placed.produce (placed : queue.Placed) (sound : queue.Sound chain) (thread : Nat) :
    (queue.produce thread).Placed := by
  obtain ⟨exchanged, returned, inside, frame⟩ := queue.produce_history thread
  have grown : (queue.produce thread).pending =
      queue.pending ++ (QueueLife.exchanges queue thread).map QueueItem.item := by
    rw [pending, pending, exchanged, returned, List.map_append, List.drop_append_of_le_length]
    rw [List.length_map]
    exact sound.length_le
  intro address there
  rw [inside] at there
  cases placed address there with
  | inl member =>
      rw [grown]
      exact Or.inl (List.mem_append_left _ member)
  | inr brought =>
      refine brought.other frame ?_
      intro appending stands either
      rcases either with rfl | rfl
      · refine Or.inr ⟨thread, Or.inr ?_⟩
        simp [Queue.produce, stands, enqueue1]
      · refine Or.inl ?_
        rw [grown, QueueLife.exchanges, stands]
        exact List.mem_append_right _ List.mem_cons_self

theorem Placed.consume (placed : queue.Placed) (sound : queue.Sound chain) :
    queue.consume.Placed := by
  have producers := queue.consume_producers
  intro address there
  by_cases takes : ∃ tail next, queue.consumer = .take tail next
  · obtain ⟨tail, next, stands⟩ := takes
    obtain ⟨first, rest, -, exchanged, returned, inside, -, shape⟩ := sound.consume_take stands
    rw [inside] at there
    have apart : address ≠ first := by
      rintro rfl
      rw [Function.update_self] at there
      cases there
    rw [Function.update_of_ne apart] at there
    cases placed address there with
    | inl member =>
        have before : queue.pending = .item first :: rest.map QueueItem.item := by
          rw [pending, ← List.map_drop, shape, List.map_cons]
        have behind : queue.consume.pending = rest.map QueueItem.item := by
          rw [pending, exchanged, returned, ← List.map_drop, List.length_append,
            List.length_singleton, ← List.drop_drop, shape]
          rfl
        rw [before] at member
        rw [behind]
        cases List.mem_cons.mp member with
        | inl same =>
            cases same
            exact absurd rfl apart
        | inr later => exact Or.inl later
    | inr brought =>
        refine Or.inr ?_
        rw [Brought, producers]
        exact brought
  · obtain ⟨exchanged, returned, inside, -⟩ :=
      sound.consume_quiet fun tail next stands => takes ⟨tail, next, stands⟩
    rw [inside] at there
    have same : queue.consume.pending = queue.pending := by
      rw [pending, exchanged, returned, pending]
    rw [Brought, producers, same]
    exact placed address there

theorem Placed.run (actions : List Action) {queue : Queue} {chain : List QueueItem}
    (placed : queue.Placed) (sound : queue.Sound chain) : (run actions queue).Placed := by
  induction actions generalizing queue chain with
  | nil => exact placed
  | cons action rest ih =>
      obtain ⟨_, sound'⟩ := sound.step action
      refine ih ?_ sound'
      cases action with
      | enqueue thread address => exact placed.enqueue thread address
      | produce thread => exact placed.produce sound thread
      | consume => exact placed.consume sound

end Placed

end Queue

/-- The queue of `sbfQueueDarwin.h`, with the items of all calls that are complete. -/
structure MutexQueue where
  mItems : List Nat
  enqueued : List Nat
  dequeued : List Nat

namespace MutexQueue

def create : MutexQueue := ⟨[], [], []⟩

inductive Call where
  | enqueue (address : Nat)
  | dequeue
deriving DecidableEq, Repr

/-- A call that is complete: `sbfQueueDequeue` waits while there is no item. -/
def call : Call → MutexQueue → MutexQueue
  | .enqueue address, queue => { queue with
      mItems := queue.mItems ++ [address]
      enqueued := queue.enqueued ++ [address] }
  | .dequeue, queue =>
      match queue.mItems with
      | [] => queue
      | item :: rest => { queue with mItems := rest, dequeued := queue.dequeued ++ [item] }

def run (calls : List Call) (queue : MutexQueue) : MutexQueue :=
  calls.foldl (fun queue call => queue.call call) queue

/-- The loop of `sbfQueueDestroy`, by the items that it puts. -/
def destroyLoop : List Nat → List Nat
  | [] => []
  | item :: rest => item :: destroyLoop rest

theorem destroyLoop_all (items : List Nat) : destroyLoop items = items := by
  induction items with
  | nil => rfl
  | cons item rest ih => rw [destroyLoop, ih]

theorem call_kept (call : Call) {queue : MutexQueue}
    (kept : queue.enqueued = queue.dequeued ++ queue.mItems) :
    (queue.call call).enqueued = (queue.call call).dequeued ++ (queue.call call).mItems := by
  cases call with
  | enqueue address => simp [MutexQueue.call, kept]
  | dequeue =>
      unfold MutexQueue.call
      dsimp only
      split
      · exact kept
      · rename_i item rest shape
        simp [kept, shape]

/-- Its items are those that were enqueued and have not been dequeued, and all are put. -/
theorem run_puts (calls : List Call) {queue : MutexQueue}
    (kept : queue.enqueued = queue.dequeued ++ queue.mItems) :
    destroyLoop (queue.run calls).mItems =
      (queue.run calls).enqueued.drop (queue.run calls).dequeued.length := by
  induction calls generalizing queue with
  | nil =>
      change destroyLoop queue.mItems = queue.enqueued.drop queue.dequeued.length
      rw [destroyLoop_all, kept, List.drop_left]
  | cons call rest ih => exact ih (call_kept call kept)

end MutexQueue

namespace Queue

/-- The Linux queue puts what was enqueued and not delivered just when that is nothing, or one
item that is the head; the other one always does. -/
theorem destroy_puts_iff (memory : QueueItem → Option QueueItem) (actions : List Action) :
    ((∃ puts, (run actions (create memory)).Puts puts ∧
        (puts.map QueueItem.item).Perm (run actions (create memory)).pending) ↔
      (run actions (create memory)).pending = [] ∨
        (run actions (create memory)).pending = [(run actions (create memory)).mHead]) ∧
    ((∀ thread, (run actions (create memory)).producers thread = none) →
      ∀ address, .item address ∈ (run actions (create memory)).pending ↔
        (run actions (create memory)).inside address = true) ∧
    ∀ calls, MutexQueue.destroyLoop (MutexQueue.run calls .create).mItems =
      (MutexQueue.run calls .create).enqueued.drop (MutexQueue.run calls .create).dequeued.length := by
  obtain ⟨chain, sound⟩ := (create_sound memory).run actions
  have placed : (run actions (create memory)).Placed :=
    Placed.run actions (fun _ inside => nomatch inside) (create_sound memory)
  refine ⟨sound.drains_iff, ?_, fun calls => MutexQueue.run_puts calls rfl⟩
  intro complete address
  constructor
  · intro member
    rw [sound.pending_eq] at member
    exact sound.inside address (List.mem_of_mem_filter member)
  · intro inside
    refine (placed address inside).resolve_right ?_
    rintro ⟨thread, stands | stands⟩
    · rw [complete thread] at stands
      cases stands
    · rw [complete thread] at stands
      cases stands

/-- One item was enqueued. -/
theorem destroy_puts_one :
    (∃ puts, (run [.enqueue 0 1, .produce 0, .produce 0, .produce 0] (create fun _ => none)).Puts
        puts ∧ (puts.map QueueItem.item).Perm (run [.enqueue 0 1, .produce 0, .produce 0, .produce 0]
          (create fun _ => none)).pending) ∧
      (.item 1 ∈ (run [.enqueue 0 1, .produce 0, .produce 0, .produce 0]
          (create fun _ => none)).pending ↔
        (run [.enqueue 0 1, .produce 0, .produce 0, .produce 0] (create fun _ => none)).inside 1 =
          true) := by
  obtain ⟨drains, complete, -⟩ := destroy_puts_iff (fun _ => none)
    [.enqueue 0 1, .produce 0, .produce 0, .produce 0]
  refine ⟨drains.mpr (Or.inr rfl), complete ?_ 1⟩
  intro thread
  simp [run, step, Queue.enqueue, Queue.produce, create, enqueue1]

/-- Two items were enqueued, and only the second is put. -/
theorem destroy_loses :
    (run [.enqueue 0 1, .produce 0, .produce 0, .produce 0, .enqueue 0 2, .produce 0, .produce 0,
        .produce 0] (create fun _ => none)).pending = [.item 1, .item 2] ∧
      ∀ puts, (run [.enqueue 0 1, .produce 0, .produce 0, .produce 0, .enqueue 0 2, .produce 0,
        .produce 0, .produce 0] (create fun _ => none)).Puts puts → puts = [2] := by
  obtain ⟨chain, sound⟩ := (create_sound fun _ => none).run [.enqueue 0 1, .produce 0, .produce 0,
    .produce 0, .enqueue 0 2, .produce 0, .produce 0, .produce 0]
  exact ⟨rfl, fun puts => (sound.puts_iff puts).mp⟩

end Queue

end Sbf
