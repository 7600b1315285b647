import Sbf.QueueLinux

set_option autoImplicit false

namespace Sbf

namespace Queue

/-- The insertions under way: a producer's, or the consumer's own of `mEmpty`. -/
def appending (queue : Queue) : Option Nat → Option (Appending QueueItem)
  | some thread => queue.producers thread
  | none =>
      match queue.consumer with
      | .insertEmpty _ appending => some appending
      | _ => none

def links (queue : Queue) : Links QueueItem (Option Nat) :=
  ⟨queue.mHead, queue.mNext, queue.appending⟩

/-- What the consumer knows of the items that it holds. -/
def ConsumerSound (queue : Queue) : Prop :=
  match queue.consumer with
  | .returned _ => True
  | .readNext tail => tail = queue.mTail
  | .skipEmpty next => queue.mTail = .mEmpty ∧ queue.mNext .mEmpty = some next
  | .readBehind tail | .readHead tail => tail = queue.mTail ∧ tail ≠ .mEmpty
  | .take tail next => tail = queue.mTail ∧ tail ≠ .mEmpty ∧ queue.mNext tail = some next
  | .insertEmpty tail appending =>
      tail = queue.mTail ∧ tail ≠ .mEmpty ∧ appending.node = .mEmpty ∧
        (appending.linking = true → tail ≠ queue.mHead)
  | .readAgain tail => tail = queue.mTail ∧ tail ≠ .mEmpty ∧ tail ≠ queue.mHead

/-- The items in the queue, from `mTail` on: those that were exchanged and not returned,
with `mEmpty` somewhere between them. -/
structure Sound (queue : Queue) (chain : List QueueItem) : Prop where
  chained : queue.links.Chained chain
  first : chain.head? = some queue.mTail
  items : queue.exchanged.map .item = queue.returned ++ chain.filter (· ≠ .mEmpty)
  inside : ∀ address, .item address ∈ chain → queue.inside address = true
  owned : ∀ thread appending, queue.producers thread = some appending →
    ∃ address, appending.node = .item address ∧ queue.inside address = true
  consumer : queue.ConsumerSound

theorem create_sound (memory : QueueItem → Option QueueItem) : (create memory).Sound [.mEmpty] where
  chained := by
    have view : (create memory).links = ⟨.mEmpty, Function.update memory .mEmpty none, fun _ => none⟩ := by
      simp only [links, create]
      congr
      funext thread
      cases thread <;> rfl
    rw [view]
    exact Links.chained_singleton _ _ (Function.update_self _ _ _)
  first := rfl
  items := rfl
  inside _ member := by simp at member
  owned _ _ has := by cases has
  consumer := trivial

theorem links_eq {queue : Queue} {links : Links QueueItem (Option Nat)}
    (head : queue.mHead = links.head) (next : queue.mNext = links.next)
    (producers : ∀ thread, queue.producers thread = links.threads (some thread))
    (own : queue.appending none = links.threads none) : queue.links = links := by
  obtain ⟨head', next', threads⟩ := links
  have same : queue.appending = threads := by
    funext thread
    cases thread with
    | none => exact own
    | some thread => exact producers thread
  simp only [Queue.links, head, next, same]

theorem chained_same {queue after : Queue} {chain : List QueueItem}
    (chained : queue.links.Chained chain) (head : after.mHead = queue.mHead)
    (next : after.mNext = queue.mNext) (producers : after.producers = queue.producers)
    (own : after.appending none = queue.appending none) : after.links.Chained chain := by
  have same : after.links = queue.links :=
    links_eq head next (fun thread => congrFun producers thread) own
  rwa [same]

theorem own_appending {queue : Queue} {appending : Appending QueueItem}
    (own : queue.appending none = some appending) :
    ∃ tail, queue.consumer = .insertEmpty tail appending := by
  cases shape : queue.consumer with
  | insertEmpty tail other =>
      rw [Queue.appending, shape] at own
      cases own
      exact ⟨tail, rfl⟩
  | _ =>
      rw [Queue.appending, shape] at own
      cases own

/-- A step of `sbfQueueEnqueue1` is one of appending, whoever takes it. -/
theorem enqueue1_links {queue after : Queue} {thread : Option Nat} {appending : Appending QueueItem}
    (stands : queue.appending thread = some appending)
    (head : after.mHead = (queue.enqueue1 appending).1.mHead)
    (next : after.mNext = (queue.enqueue1 appending).1.mNext)
    (threads : after.appending = Function.update queue.appending thread (queue.enqueue1 appending).2) :
    after.links = queue.links.append thread := by
  have stands' : queue.links.threads thread = some appending := stands
  unfold Links.append
  rw [Queue.links, head, next, threads]
  cases appending <;> simp only [stands'] <;> rfl

/-- What a step of `sbfQueueEnqueue1` adds to the history. -/
theorem enqueue1_exchanged {queue : Queue} {thread : Option Nat} {appending : Appending QueueItem}
    (stands : queue.appending thread = some appending) :
    (queue.enqueue1 appending).1.exchanged.map .item =
      queue.exchanged.map .item ++ (queue.links.exchanged thread).filter (· ≠ .mEmpty) := by
  have stands' : queue.links.threads thread = some appending := stands
  unfold Links.exchanged
  cases appending with
  | clear node => simp [stands', enqueue1]
  | link node last => simp [stands', enqueue1]
  | exchange node => cases node <;> simp [stands', enqueue1]

section Steps

variable {queue : Queue} {chain : List QueueItem}

theorem Sound.first_mem (sound : queue.Sound chain) : queue.mTail ∈ chain :=
  List.mem_of_head? sound.first

/-- A thread that takes a step of `sbfQueueEnqueue1` leaves the rest as it is. -/
theorem Sound.append (sound : queue.Sound chain) {after : Queue} {thread : Option Nat}
    {appending : Appending QueueItem} (stands : queue.appending thread = some appending)
    (links : after.links = queue.links.append thread) (tail : after.mTail = queue.mTail)
    (inside : after.inside = queue.inside) (returned : after.returned = queue.returned)
    (exchanged : after.exchanged = (queue.enqueue1 appending).1.exchanged)
    (owned : ∀ thread appending, after.producers thread = some appending →
      ∃ address, appending.node = .item address ∧ queue.inside address = true)
    (consumer : after.ConsumerSound) :
    after.Sound (chain ++ queue.links.exchanged thread) where
  chained := links ▸ sound.chained.append thread
  first := by rw [List.head?_append, sound.first, tail]; rfl
  items := by
    rw [exchanged, enqueue1_exchanged stands, sound.items, returned, List.filter_append,
      List.append_assoc]
  inside address member := by
    rw [inside]
    rcases List.mem_append.mp member with member | member
    · exact sound.inside address member
    · unfold Links.exchanged at member
      split at member
      · rename_i node exchanges
        obtain rfl := List.mem_singleton.mp member
        cases thread with
        | none =>
            obtain ⟨tail, inserts⟩ := own_appending exchanges
            have known := sound.consumer
            rw [ConsumerSound, inserts] at known
            cases known.2.2.1
        | some thread =>
            obtain ⟨other, same, inside⟩ := sound.owned thread _ exchanges
            cases same
            exact inside
      · cases member
  owned thread appending has := by rw [inside]; exact owned thread appending has
  consumer := consumer

theorem ConsumerSound.keeps {after : Queue} (known : queue.ConsumerSound)
    (consumer : after.consumer = queue.consumer) (tail : after.mTail = queue.mTail)
    (head : after.mHead = queue.mHead ∨ after.mHead ≠ queue.mTail)
    (links : ∀ next, queue.mNext queue.mTail = some next → after.mNext queue.mTail = some next) :
    after.ConsumerSound := by
  unfold ConsumerSound at known ⊢
  rw [consumer, tail]
  cases shape : queue.consumer <;> rw [shape] at known <;> simp only at known ⊢
  case skipEmpty next =>
    obtain ⟨first, linked⟩ := known
    exact ⟨first, by rw [← first] at linked ⊢; exact links next linked⟩
  case take tail next =>
    obtain ⟨rfl, differs, linked⟩ := known
    exact ⟨rfl, differs, links next linked⟩
  case insertEmpty tail appending =>
    obtain ⟨rfl, differs, node, later⟩ := known
    refine ⟨rfl, differs, node, fun linking same => ?_⟩
    rcases head with head | head
    · exact later linking (same.trans head)
    · exact head same.symm
  case readAgain tail =>
    obtain ⟨rfl, differs, later⟩ := known
    refine ⟨rfl, differs, fun same => ?_⟩
    rcases head with head | head
    · exact later (same.trans head)
    · exact head same.symm
  all_goals exact known

theorem Sound.enqueue (sound : queue.Sound chain) (thread address : Nat) :
    (queue.enqueue thread address).Sound chain := by
  unfold Queue.enqueue
  split
  · rename_i free
    obtain ⟨idle, outside⟩ := free
    have absent : QueueItem.item address ∉ chain := by
      intro member
      rw [sound.inside address member] at outside
      cases outside
    have nobody : ∀ other, ¬ queue.links.Brings other (.item address) := by
      intro other brings
      have has : ∃ appending, queue.appending other = some appending ∧
          appending.node = .item address := by
        rcases brings with brings | brings <;> exact ⟨_, brings, rfl⟩
      obtain ⟨appending, has, node⟩ := has
      cases other with
      | none =>
          obtain ⟨tail, inserts⟩ := own_appending has
          have known := sound.consumer
          rw [ConsumerSound, inserts] at known
          cases known.2.2.1.symm.trans node
      | some other =>
          obtain ⟨_, same, inside⟩ := sound.owned other appending has
          cases same.symm.trans node
          cases inside.symm.trans outside
    have view : Queue.links { queue with
        producers := Function.update queue.producers thread (some (.clear (.item address)))
        inside := Function.update queue.inside address true } =
        queue.links.start (some thread) (.item address) := by
      refine links_eq rfl rfl ?_ ?_
      · intro other
        by_cases here : other = thread
        · subst here
          simp [Links.start, Queue.links]
        · have apart : some other ≠ some thread := fun same => here (Option.some.inj same)
          simp only [Links.start, Queue.links, Function.update_of_ne apart]
          exact Function.update_of_ne here _ _
      · have apart : none ≠ some thread := nofun
        simp only [Links.start, Queue.links, Function.update_of_ne apart]
        rfl
    have stays : ∀ other, queue.inside other = true →
        Function.update queue.inside address true other = true := by
      intro other inside
      rw [Function.update_apply]
      split
      · rfl
      · exact inside
    refine ⟨?_, sound.first, sound.items, ?_, ?_, ?_⟩
    · rw [view]
      exact sound.chained.start idle absent nobody
    · exact fun other member => stays other (sound.inside other member)
    · intro other appending has
      rcases Links.update_some.mp has with ⟨_, same⟩ | ⟨_, has⟩
      · cases same
        exact ⟨address, rfl, Function.update_self _ _ _⟩
      · obtain ⟨owned, node, inside⟩ := sound.owned other appending has
        exact ⟨owned, node, stays owned inside⟩
    · exact sound.consumer.keeps rfl rfl (Or.inl rfl) (fun _ linked => linked)
  · exact sound

theorem enqueue1_node {queue : Queue} {appending more : Appending QueueItem}
    (left : (queue.enqueue1 appending).2 = some more) : more.node = appending.node := by
  cases appending <;> simp [enqueue1] at left <;> subst left <;> rfl

/-- A step of `sbfQueueEnqueue1` writes only the head, a link and the history. -/
theorem enqueue1_frame (queue : Queue) (appending : Appending QueueItem) :
    (queue.enqueue1 appending).1 = { queue with
      mHead := (queue.enqueue1 appending).1.mHead
      mNext := (queue.enqueue1 appending).1.mNext
      exchanged := (queue.enqueue1 appending).1.exchanged } := by
  cases appending <;> rfl

/-- The head becomes an item that was not in the queue. -/
theorem Sound.enqueue1_head (sound : queue.Sound chain) {thread : Option Nat}
    {appending : Appending QueueItem} (stands : queue.appending thread = some appending) :
    (queue.enqueue1 appending).1.mHead = queue.mHead ∨
      (queue.enqueue1 appending).1.mHead ≠ queue.mTail := by
  cases appending with
  | clear item => exact Or.inl rfl
  | link item last => exact Or.inl rfl
  | exchange item =>
      refine Or.inr fun same => ?_
      have member : item ∈ chain := (show item = queue.mTail from same) ▸ sound.first_mem
      exact sound.chained.outside thread item (Or.inr stands) member

theorem Sound.produce (sound : queue.Sound chain) (thread : Nat) :
    (queue.produce thread).Sound (chain ++ queue.links.exchanged (some thread)) := by
  cases stands : queue.producers thread with
  | none =>
      have idle : queue.links.exchanged (some thread) = [] := by
        simp only [Links.exchanged, Queue.links, Queue.appending, stands]
      rw [Queue.produce, stands, idle, List.append_nil]
      exact sound
  | some appending =>
      have shape : queue.produce thread = { queue with
          mHead := (queue.enqueue1 appending).1.mHead
          mNext := (queue.enqueue1 appending).1.mNext
          exchanged := (queue.enqueue1 appending).1.exchanged
          producers := Function.update queue.producers thread (queue.enqueue1 appending).2 } := by
        rw [Queue.produce, stands]
        simp only
        rw [enqueue1_frame]
      have links : (queue.produce thread).links = queue.links.append (some thread) := by
        refine enqueue1_links stands (by rw [shape]) (by rw [shape]) ?_
        funext other
        rw [shape]
        cases other with
        | none => rfl
        | some other =>
            by_cases here : other = thread
            · subst here
              simp [Queue.appending]
            · have apart : some other ≠ some thread := fun same => here (Option.some.inj same)
              rw [Function.update_of_ne apart]
              exact Function.update_of_ne here _ _
      refine sound.append stands links (by rw [shape]) (by rw [shape]) (by rw [shape])
        (by rw [shape]) ?_ ?_
      · intro other more has
        rw [shape] at has
        rcases Links.update_some.mp has with ⟨_, left⟩ | ⟨_, has⟩
        · rw [enqueue1_node left]
          exact sound.owned thread appending stands
        · exact sound.owned other more has
      · refine sound.consumer.keeps (by rw [shape]) (by rw [shape]) ?_ ?_
        · rw [shape]
          exact sound.enqueue1_head (show queue.appending (some thread) = some appending from stands)
        intro next linked
        have kept := sound.chained.append_next sound.first_mem linked (some thread)
        rw [← links] at kept
        exact kept

/-- The consumer moves on without writing anything. -/
theorem Sound.moves (sound : queue.Sound chain) {consumer : QueueNext}
    (own : queue.appending none = none)
    (own' : Queue.appending { queue with consumer := consumer } none = none)
    (known : ConsumerSound { queue with consumer := consumer }) :
    Sound { queue with consumer := consumer } chain where
  chained := chained_same sound.chained rfl rfl rfl (own'.trans own.symm)
  first := sound.first
  items := sound.items
  inside := sound.inside
  owned := sound.owned
  consumer := known

theorem Sound.chain_eq (sound : queue.Sound chain) : ∃ rest, chain = queue.mTail :: rest := by
  cases chain with
  | nil => cases sound.first
  | cons first rest =>
      cases sound.first
      exact ⟨rest, rfl⟩

/-- The consumer moves `mTail` past the stub. -/
theorem Sound.skipEmpty (sound : queue.Sound chain) {next : QueueItem}
    (stands : queue.consumer = .skipEmpty next) :
    ∃ rest, chain = .mEmpty :: next :: rest ∧ queue.consume.Sound (next :: rest) := by
  have known := sound.consumer
  rw [ConsumerSound, stands] at known
  obtain ⟨first, linked⟩ := known
  obtain ⟨rest, rfl⟩ := sound.chain_eq
  rw [first] at sound
  obtain ⟨rest, rfl⟩ := sound.chained.second linked
  have differs : next ≠ .mEmpty := by
    rintro rfl
    exact (List.nodup_cons.mp sound.chained.distinct).1 List.mem_cons_self
  have shape : queue.consume = { queue with mTail := next, consumer := .readBehind next } := by
    rw [consume, stands]
  refine ⟨rest, by rw [first], ?_⟩
  rw [shape]
  refine ⟨?_, rfl, ?_, ?_, sound.owned, ⟨rfl, differs⟩⟩
  · have own : queue.appending none = none := by rw [Queue.appending, stands]
    exact chained_same (sound.chained.leave linked) rfl rfl rfl own.symm
  · rw [sound.items]
    rfl
  · exact fun address member => sound.inside address (List.mem_cons_of_mem _ member)

/-- The consumer moves `mTail` past an item and returns it. -/
theorem Sound.take (sound : queue.Sound chain) {tail next : QueueItem}
    (stands : queue.consumer = .take tail next) :
    ∃ rest, chain = tail :: next :: rest ∧ queue.consume.Sound (next :: rest) := by
  have known := sound.consumer
  rw [ConsumerSound, stands] at known
  obtain ⟨rfl, differs, linked⟩ := known
  obtain ⟨rest, rfl⟩ := sound.chain_eq
  obtain ⟨rest, rfl⟩ := sound.chained.second linked
  have absent := (List.nodup_cons.mp sound.chained.distinct).1
  have shape : queue.consume = { queue with
      mTail := next
      consumer := .returned (some queue.mTail)
      inside := giveBack queue.inside queue.mTail
      returned := queue.returned ++ [queue.mTail] } := by
    rw [consume, stands]
  have stays : ∀ address, .item address ≠ queue.mTail → queue.inside address = true →
      giveBack queue.inside queue.mTail address = true := by
    intro address apart inside
    cases here : queue.mTail with
    | mEmpty => exact inside
    | item first =>
        rw [here] at apart
        rw [giveBack, Function.update_of_ne (fun same => apart (congrArg _ same))]
        exact inside
  refine ⟨rest, rfl, ?_⟩
  rw [shape]
  refine ⟨?_, rfl, ?_, ?_, ?_, trivial⟩
  · have own : queue.appending none = none := by rw [Queue.appending, stands]
    exact chained_same (sound.chained.leave linked) rfl rfl rfl own.symm
  · rw [sound.items, List.filter_cons_of_pos (by simpa using differs), List.append_assoc]
    rfl
  · intro address member
    refine stays address ?_ (sound.inside address (List.mem_cons_of_mem _ member))
    rintro same
    exact absent (same ▸ member)
  · intro thread appending has
    obtain ⟨address, node, inside⟩ := sound.owned thread appending has
    refine ⟨address, node, stays address ?_ inside⟩
    rintro same
    have here : appending.node = queue.mTail := node.trans same
    cases appending with
    | clear item =>
        exact sound.chained.outside (some thread) item (Or.inl has) (here ▸ List.mem_cons_self)
    | exchange item =>
        exact sound.chained.outside (some thread) item (Or.inr has) (here ▸ List.mem_cons_self)
    | link item last =>
        have links' : queue.links.threads (some thread) = some (.link item last) := has
        have behind := sound.chained.link_mem_tail links'
        exact absent (here ▸ behind)

theorem Sound.readHead (sound : queue.Sound chain) {tail : QueueItem}
    (stands : queue.consumer = .readHead tail) : queue.consume.Sound chain := by
  have own : queue.appending none = none := by rw [Queue.appending, stands]
  have known := sound.consumer
  rw [ConsumerSound, stands] at known
  obtain ⟨rfl, differs⟩ := known
  rw [consume, stands]
  simp only
  split
  · exact sound.moves own rfl trivial
  · rename_i same
    obtain ⟨rest, rfl⟩ := sound.chain_eq
    obtain rfl := sound.chained.alone (not_not.mp same)
    have nobody : ∀ other, ¬ queue.links.Brings other .mEmpty := by
      intro other brings
      cases other with
      | none =>
          rcases brings with brings | brings <;> cases own.symm.trans brings
      | some other =>
          rcases brings with brings | brings <;>
            obtain ⟨_, node, _⟩ := sound.owned other _ brings <;> cases node
    have view : Queue.links { queue with consumer := .insertEmpty queue.mTail (.clear .mEmpty) } =
        queue.links.start none .mEmpty := by
      refine links_eq rfl rfl (fun thread => ?_) ?_
      · have apart : some thread ≠ none := nofun
        simp only [Links.start, Function.update_of_ne apart]
        rfl
      · simp only [Links.start, Function.update_self]
        rfl
    refine ⟨?_, rfl, sound.items, sound.inside, sound.owned, ⟨rfl, differs, rfl, nofun⟩⟩
    rw [view]
    exact sound.chained.start own (fun member => differs (List.mem_singleton.mp member).symm) nobody

theorem Sound.insertEmpty (sound : queue.Sound chain) {tail : QueueItem}
    {appending : Appending QueueItem} (stands : queue.consumer = .insertEmpty tail appending) :
    queue.consume.Sound (chain ++ queue.links.exchanged none) := by
  have own : queue.appending none = some appending := by rw [Queue.appending, stands]
  have known := sound.consumer
  rw [ConsumerSound, stands] at known
  obtain ⟨rfl, differs, node, later⟩ := known
  have shape : queue.consume = { queue with
      mHead := (queue.enqueue1 appending).1.mHead
      mNext := (queue.enqueue1 appending).1.mNext
      exchanged := (queue.enqueue1 appending).1.exchanged
      consumer := (queue.enqueue1 appending).2.elim (.readAgain queue.mTail)
        (.insertEmpty queue.mTail) } := by
    rw [consume, stands]
    cases appending <;> rfl
  have links : queue.consume.links = queue.links.append none := by
    refine enqueue1_links own (by rw [shape]) (by rw [shape]) ?_
    funext other
    rw [shape]
    cases other with
    | none =>
        rw [Function.update_self]
        cases (queue.enqueue1 appending).2 <;> rfl
    | some other =>
        have apart : some other ≠ none := nofun
        rw [Function.update_of_ne apart]
        rfl
  refine sound.append own links (by rw [shape]) (by rw [shape]) (by rw [shape]) (by rw [shape]) ?_ ?_
  · rw [shape]
    exact sound.owned
  · rw [shape]
    cases appending with
    | clear item => exact ⟨rfl, differs, node, nofun⟩
    | exchange item =>
        obtain rfl : item = .mEmpty := node
        exact ⟨rfl, differs, rfl, fun _ => differs⟩
    | link item last => exact ⟨rfl, differs, later rfl⟩

/-- Every step of the consumer keeps the queue sound. -/
theorem Sound.consume (sound : queue.Sound chain) : ∃ chain', queue.consume.Sound chain' := by
  have known := sound.consumer
  cases stands : queue.consumer with
  | insertEmpty tail appending => exact ⟨_, sound.insertEmpty stands⟩
  | skipEmpty next =>
      obtain ⟨rest, _, sound'⟩ := sound.skipEmpty stands
      exact ⟨_, sound'⟩
  | take tail next =>
      obtain ⟨rest, _, sound'⟩ := sound.take stands
      exact ⟨_, sound'⟩
  | readHead tail => exact ⟨chain, sound.readHead stands⟩
  | returned item =>
      have own : queue.appending none = none := by rw [Queue.appending, stands]
      rw [Queue.consume, stands]
      exact ⟨chain, sound.moves own rfl rfl⟩
  | readNext tail =>
      have own : queue.appending none = none := by rw [Queue.appending, stands]
      rw [ConsumerSound, stands] at known
      obtain rfl := known
      rw [Queue.consume, stands]
      simp only
      split
      · rename_i stub
        cases linked : queue.mNext queue.mTail with
        | none => exact ⟨chain, sound.moves own rfl trivial⟩
        | some next => exact ⟨chain, sound.moves own rfl ⟨stub, stub ▸ linked⟩⟩
      · rename_i differs
        cases linked : queue.mNext queue.mTail with
        | none => exact ⟨chain, sound.moves own rfl ⟨rfl, differs⟩⟩
        | some next => exact ⟨chain, sound.moves own rfl ⟨rfl, differs, linked⟩⟩
  | readBehind tail =>
      have own : queue.appending none = none := by rw [Queue.appending, stands]
      rw [ConsumerSound, stands] at known
      obtain ⟨rfl, differs⟩ := known
      rw [Queue.consume, stands]
      simp only
      cases linked : queue.mNext queue.mTail with
      | none => exact ⟨chain, sound.moves own rfl ⟨rfl, differs⟩⟩
      | some next => exact ⟨chain, sound.moves own rfl ⟨rfl, differs, linked⟩⟩
  | readAgain tail =>
      have own : queue.appending none = none := by rw [Queue.appending, stands]
      rw [ConsumerSound, stands] at known
      obtain ⟨rfl, differs, _⟩ := known
      rw [Queue.consume, stands]
      simp only
      cases linked : queue.mNext queue.mTail with
      | none => exact ⟨chain, sound.moves own rfl trivial⟩
      | some next => exact ⟨chain, sound.moves own rfl ⟨rfl, differs, linked⟩⟩

theorem Sound.step (sound : queue.Sound chain) (action : Action) :
    ∃ chain', (step action queue).Sound chain' := by
  cases action with
  | enqueue thread address => exact ⟨chain, sound.enqueue thread address⟩
  | produce thread => exact ⟨_, sound.produce thread⟩
  | consume => exact sound.consume

theorem Sound.run (actions : List Action) {queue : Queue} {chain : List QueueItem}
    (sound : queue.Sound chain) : ∃ chain', (run actions queue).Sound chain' := by
  induction actions generalizing queue chain with
  | nil => exact ⟨chain, sound⟩
  | cons action rest ih =>
      obtain ⟨_, sound'⟩ := sound.step action
      exact ih sound'

end Steps

theorem consume_producers (queue : Queue) : queue.consume.producers = queue.producers := by
  unfold consume
  split
  case h_7 tail appending stands => cases appending <;> rfl
  all_goals repeat' split
  all_goals rfl

/-- The items that were exchanged and have not been returned yet. -/
def pending (queue : Queue) : List QueueItem :=
  (queue.exchanged.map QueueItem.item).drop queue.returned.length

theorem Sound.pending_eq {queue : Queue} {chain : List QueueItem} (sound : queue.Sound chain) :
    queue.pending = chain.filter (· ≠ .mEmpty) := by
  rw [pending, sound.items, List.drop_left]

/-- The consumer is between two calls, and every link is there. -/
structure Quiet (queue : Queue) : Prop where
  consumer : ∃ item, queue.consumer = .returned item
  producers : ∀ thread item last, queue.producers thread ≠ some (.link item last)

/-- After some steps of the consumer alone its call is over. -/
def Returns (queue : Queue) (item : Option QueueItem) : Prop :=
  ∃ steps, (consume^[steps] queue).consumer = .returned item ∧
    (consume^[steps] queue).returned = queue.returned ++ item.toList

theorem Returns.step {queue : Queue} {item : Option QueueItem} (more : queue.consume.Returns item)
    (same : queue.consume.returned = queue.returned) : queue.Returns item := by
  obtain ⟨steps, over_, returned⟩ := more
  exact ⟨steps + 1, over_, returned.trans (by rw [same])⟩

section Serve

variable {queue : Queue} {chain : List QueueItem}

theorem take_returns {tail next : QueueItem} (stands : queue.consumer = .take tail next) :
    queue.Returns (some tail) :=
  ⟨1, by simp [consume, stands], by simp [consume, stands]⟩

/-- An item that is the whole queue is returned after `mEmpty` was put behind it. -/
theorem readHead_returns {tail : QueueItem} (stands : queue.consumer = .readHead tail)
    (same : tail = queue.mHead) : queue.Returns (some tail) :=
  ⟨6, by simp [consume, enqueue1, stands, ← same], by simp [consume, enqueue1, stands, ← same]⟩

/-- The item at `mTail` is returned, once the consumer has come to read its link. -/
theorem Sound.serves (sound : queue.Sound chain)
    (links : ∀ thread item last, queue.producers thread ≠ some (.link item last))
    (own : queue.appending none = none)
    (reads : queue.consume = { queue with
      consumer := (queue.mNext queue.mTail).elim (.readHead queue.mTail) (.take queue.mTail) }) :
    queue.Returns (some queue.mTail) := by
  refine Returns.step ?_ (by rw [reads])
  rw [reads]
  cases linked : queue.mNext queue.mTail with
  | some behind => exact take_returns rfl
  | none =>
      obtain ⟨rest, rfl⟩ := sound.chain_eq
      rcases sound.chained.broken linked with rfl | ⟨thread, item, links'⟩
      · exact readHead_returns rfl (Option.some.inj sound.chained.last)
      · cases thread with
        | none => cases own.symm.trans links'
        | some thread => exact absurd links' (links thread item _)

/-- The first of the items that have not been returned is returned next. -/
theorem Sound.returns (sound : queue.Sound chain) (quiet : queue.Quiet) :
    queue.Returns queue.pending.head? := by
  obtain ⟨⟨item, stands⟩, links⟩ := quiet
  have own : queue.appending none = none := by rw [Queue.appending, stands]
  have called : queue.consume = { queue with consumer := .readNext queue.mTail } := by
    rw [Queue.consume, stands]
    rfl
  have sound' : Queue.Sound { queue with consumer := .readNext queue.mTail } chain :=
    sound.moves own rfl rfl
  refine Returns.step ?_ (by rw [called])
  rw [called, sound.pending_eq]
  obtain ⟨rest, rfl⟩ := sound.chain_eq
  by_cases stub : queue.mTail = .mEmpty
  · cases linked : queue.mNext .mEmpty with
    | none =>
        rw [stub] at sound
        rcases sound.chained.broken linked with rfl | ⟨thread, item, links'⟩
        · exact ⟨1, by simp [Queue.consume, stub, linked], by simp [Queue.consume, stub, linked]⟩
        · cases thread with
          | none => cases own.symm.trans links'
          | some thread => exact absurd links' (links thread item _)
    | some next =>
        have skips : Queue.consume { queue with consumer := .readNext queue.mTail } =
            { queue with consumer := .skipEmpty next } := by
          simp only [Queue.consume, if_pos stub]
          rw [stub, linked]
        have sound'' : Queue.Sound { queue with consumer := .skipEmpty next }
            (queue.mTail :: rest) := sound.moves own rfl ⟨stub, linked⟩
        obtain ⟨rest', shape, behind⟩ := sound''.skipEmpty rfl
        have differs : next ≠ .mEmpty := behind.consumer.2
        refine Returns.step (Returns.step ?_ ?_) ?_ <;> rw [skips]
        · rw [shape, List.filter_cons_of_neg (by simp), List.filter_cons_of_pos (by simpa using differs)]
          exact behind.serves links rfl (by
            simp only [Queue.consume]
            cases queue.mNext next <;> rfl)
        · rfl
  · rw [List.filter_cons_of_pos (by simpa using stub)]
    refine sound'.serves links rfl ?_
    simp only [Queue.consume, if_neg stub]
    cases queue.mNext queue.mTail <;> rfl

end Serve

/-- In every state of every run the consumer has returned the first of the items in the
order in which the producers exchanged them for the head, and nothing else; and none is
lost: once all links are there, a call returns the next of them. -/
theorem run_fifo (memory : QueueItem → Option QueueItem) (actions : List Action) :
    (run actions (create memory)).returned <+:
        (run actions (create memory)).exchanged.map QueueItem.item ∧
      ((run actions (create memory)).Quiet →
        (run actions (create memory)).Returns (run actions (create memory)).pending.head?) := by
  obtain ⟨chain, sound⟩ := (create_sound memory).run actions
  exact ⟨⟨_, sound.items.symm⟩, sound.returns⟩

end Queue

end Sbf
