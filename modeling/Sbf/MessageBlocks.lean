import Sbf.HandlerReceiver

set_option autoImplicit false

namespace Sbf

open Octets

/-- The blocks `count + 1, count + 2, …` of a message, the last one marked, with
the bytes that are left of it. -/
inductive Continues (name : Bytes) : Nat → List Block → Bytes → Prop
  | last (count : Nat) (block : Block) (named : block.name = name)
      (number : block.hdr.mFragNum.toNat = count + 1) (marked : block.hdr.isLastFragment = true) :
      Continues name count [block] block.payload
  | more (count : Nat) (block : Block) (rest : List Block) (left : Bytes)
      (named : block.name = name) (number : block.hdr.mFragNum.toNat = count + 1)
      (unmarked : block.hdr.isLastFragment = false) (later : Continues name (count + 1) rest left) :
      Continues name count (block :: rest) (block.payload ++ left)

/-- How a message lies in consecutive blocks: whole in one, or in fragments. -/
inductive Carries : List Block → Message → Prop
  | whole (block : Block) (number : block.hdr.mFragNum = 0) :
      Carries [block] ⟨block.name, block.payload⟩
  | pieces (name : Bytes) (blocks : List Block) (payload : Bytes)
      (fragments : Continues name 0 blocks payload) : Carries blocks ⟨name, payload⟩

/-- Messages one after the other. -/
def CarriesAll (blocks : List Block) (messages : List Message) : Prop :=
  ∃ parts : List (List Block), parts.flatten = blocks ∧ List.Forall₂ Carries parts messages

namespace CarriesAll

theorem nil : CarriesAll [] [] := ⟨[], rfl, .nil⟩

theorem append {front back : List Block} {before after : List Message}
    (first : CarriesAll front before) (second : CarriesAll back after) :
    CarriesAll (front ++ back) (before ++ after) := by
  obtain ⟨left, rfl, carried⟩ := first
  obtain ⟨right, rfl, carried'⟩ := second
  exact ⟨left ++ right, List.flatten_append, List.rel_append carried carried'⟩

theorem of_carries {blocks : List Block} {message : Message} (carries : Carries blocks message) :
    CarriesAll blocks [message] :=
  ⟨[blocks], by simp, .cons carries .nil⟩

end CarriesAll

/-- What a block is for reassembly; the packet it lies in does not matter. -/
def Block.content (block : Block) : Bytes × Nat × Bool × Bytes :=
  (block.name, block.hdr.mFragNum.toNat, block.hdr.isLastFragment, block.payload)

theorem Continues.congr {name : Bytes} {count : Nat} {blocks : List Block} {left : Bytes}
    (fragments : Continues name count blocks left) (others : List Block)
    (same : others.map Block.content = blocks.map Block.content) :
    Continues name count others left := by
  induction fragments generalizing others with
  | last count block named number marked =>
      obtain ⟨other, rest, rfl, here, behind⟩ := List.map_eq_cons_iff.mp same
      obtain rfl := List.map_eq_nil_iff.mp behind
      simp only [Block.content, Prod.mk.injEq] at here
      obtain ⟨name_eq, number_eq, mark_eq, payload_eq⟩ := here
      rw [← payload_eq]
      exact .last count other (by rw [name_eq, named]) (by rw [number_eq, number])
        (by rw [mark_eq, marked])
  | more count block rest left named number unmarked later ih =>
      obtain ⟨other, tail, rfl, here, behind⟩ := List.map_eq_cons_iff.mp same
      simp only [Block.content, Prod.mk.injEq] at here
      obtain ⟨name_eq, number_eq, mark_eq, payload_eq⟩ := here
      rw [← payload_eq]
      exact .more count other tail left (by rw [name_eq, named]) (by rw [number_eq, number])
        (by rw [mark_eq, unmarked]) (ih tail behind)

theorem Carries.congr {blocks : List Block} {message : Message} (carries : Carries blocks message)
    (others : List Block) (same : others.map Block.content = blocks.map Block.content) :
    Carries others message := by
  cases carries with
  | whole block number =>
      obtain ⟨other, rest, rfl, here, behind⟩ := List.map_eq_cons_iff.mp same
      obtain rfl := List.map_eq_nil_iff.mp behind
      simp only [Block.content, Prod.mk.injEq] at here
      obtain ⟨name_eq, number_eq, _, payload_eq⟩ := here
      rw [← name_eq, ← payload_eq]
      exact .whole other (UInt8.toNat_inj.mp (by rw [number_eq, number]))
  | pieces name blocks payload fragments => exact .pieces name _ _ (fragments.congr others same)

theorem CarriesAll.congr {blocks : List Block} {messages : List Message}
    (carries : CarriesAll blocks messages) (others : List Block)
    (same : others.map Block.content = blocks.map Block.content) : CarriesAll others messages := by
  obtain ⟨parts, rfl, carried⟩ := carries
  induction carried generalizing others with
  | nil =>
      obtain rfl := List.map_eq_nil_iff.mp same
      exact .nil
  | @cons part message parts messages first rest ih =>
      rw [List.flatten_cons, List.map_append] at same
      obtain ⟨front, back, rfl, here, behind⟩ := List.map_eq_append_iff.mp same
      exact append (of_carries (first.congr front here)) (ih back behind)

namespace Receiver

/-- Nothing is being put together for a topic. -/
def IdleAt (receiver : Receiver) (name : Bytes) : Prop :=
  ∀ frag, receiver name = some frag → frag.Idle

/-- Nothing is being put together for any topic. -/
def Idle (receiver : Receiver) : Prop := ∀ name, receiver.IdleAt name

theorem set_set (receiver : Receiver) (name : Bytes) (first second : Reassembly) :
    (receiver.set name first).set name second = receiver.set name second := by
  funext other
  simp only [set]
  split <;> rfl

theorem IdleAt.set (receiver : Receiver) (name : Bytes) (frag : Reassembly)
    (empty : frag.Idle) : (receiver.set name frag).IdleAt name := by
  intro found lookup
  rw [set_self] at lookup
  cases lookup
  exact empty

/-- The messages a receiver listens to. -/
def wanted (receiver : Receiver) (messages : List Message) : List Message :=
  messages.filter (fun message => (receiver message.topic).isSome)

@[simp] theorem takeAll_nil (receiver : Receiver) : takeAll [] receiver = (receiver, []) := rfl

@[simp] theorem takeAll_cons (block : Block) (rest : List Block) (receiver : Receiver) :
    takeAll (block :: rest) receiver =
      ((takeAll rest (take block receiver).1).1,
        (take block receiver).2 ++ (takeAll rest (take block receiver).1).2) := rfl

theorem takeAll_append (first second : List Block) (receiver : Receiver) :
    takeAll (first ++ second) receiver =
      ((takeAll second (takeAll first receiver).1).1,
        (takeAll first receiver).2 ++ (takeAll second (takeAll first receiver).1).2) := by
  simp only [takeAll, List.map_append]
  exact Step.runSpec_append _ _ _

theorem take_fragment (block : Block) (receiver : Receiver) (frag : Reassembly)
    (listening : receiver block.name = some frag) (number : block.hdr.mFragNum ≠ 0) :
    take block receiver =
      (receiver.set block.name (Tport.assemble frag block.hdr block.payload).2,
        (Tport.assemble frag block.hdr block.payload).1.toList.map (⟨block.name, ·⟩)) := by
  simp only [take, listening, if_pos number]

theorem take_whole (block : Block) (receiver : Receiver) (frag : Reassembly)
    (listening : receiver block.name = some frag) (number : block.hdr.mFragNum = 0) :
    take block receiver = (receiver, [⟨block.name, block.payload⟩]) := by
  simp only [take, listening, number, ne_eq, not_true_eq_false, ↓reduceIte]

theorem take_deaf (block : Block) (receiver : Receiver) (deaf : receiver block.name = none) :
    take block receiver = (receiver, []) := by
  simp only [take, deaf]

/-- Who listens never changes. -/
theorem take_isSome (block : Block) (receiver : Receiver) (name : Bytes) :
    ((take block receiver).1 name).isSome = (receiver name).isSome := by
  cases lookup : receiver block.name with
  | none => rw [take_deaf block receiver lookup]
  | some frag =>
      by_cases number : block.hdr.mFragNum = 0
      · rw [take_whole block receiver frag lookup number]
      · simp only [take_fragment block receiver frag lookup number]
        by_cases here : name = block.name
        · simp only [here, set_self, lookup, Option.isSome_some]
        · rw [set_other _ _ _ _ here]

theorem takeAll_isSome (blocks : List Block) (receiver : Receiver) (name : Bytes) :
    ((takeAll blocks receiver).1 name).isSome = (receiver name).isSome := by
  induction blocks generalizing receiver with
  | nil => rfl
  | cons block rest ih => rw [takeAll_cons, ih, take_isSome]

/-- A topic nobody listens to passes without a trace. -/
theorem takeAll_deaf (name : Bytes) (blocks : List Block) (receiver : Receiver)
    (named : ∀ block ∈ blocks, block.name = name) (deaf : receiver name = none) :
    takeAll blocks receiver = (receiver, []) := by
  induction blocks with
  | nil => rfl
  | cons block rest ih =>
      have here : receiver block.name = none := by
        rw [named block (by simp)]
        exact deaf
      rw [takeAll_cons, take_deaf block receiver here,
        ih (fun other member => named other (by simp [member]))]
      rfl

end Receiver

/-- Messages nobody listens to make no difference to anybody. -/
theorem Topics.expected_wanted (topics : List TportTopic) (subs : SubId → Sub) (sub : SubId)
    (messages : List Message) :
    expected topics subs sub ((receiver topics).wanted messages) =
      expected topics subs sub messages := by
  induction messages with
  | nil => rfl
  | cons message rest ih =>
      cases view : receiver topics message.topic with
      | none =>
          have nobody : sub ∉ subscribers topics message.topic := by
            simp only [receiver, Handler.listening, Option.map_eq_none_iff,
              Option.filter_eq_none_iff] at view
            unfold subscribers
            split
            · exact List.not_mem_nil
            · rename_i ttopic found
              have unsubscribed := view ttopic found
              simp only [Bool.not_eq_true', Bool.not_eq_false, List.isEmpty_iff] at unsubscribed
              rw [unsubscribed]
              exact List.not_mem_nil
          simp only [expected, List.flatMap_cons, if_neg nobody, List.nil_append] at ih ⊢
          rw [← ih]
          simp [Receiver.wanted, view]
      | some frag =>
          have kept : (receiver topics).wanted (message :: rest) =
              message :: (receiver topics).wanted rest := by
            simp [Receiver.wanted, view]
          rw [kept]
          simp only [expected, List.flatMap_cons] at ih ⊢
          rw [ih]

theorem Continues.named {name : Bytes} {count : Nat} {blocks : List Block} {left : Bytes}
    (fragments : Continues name count blocks left) : ∀ block ∈ blocks, block.name = name := by
  induction fragments with
  | last count block named number marked => simpa using named
  | more count block rest left named number unmarked later ih => simpa using ⟨named, ih⟩

theorem Carries.name_eq {blocks : List Block} {message : Message}
    (carries : Carries blocks message) (block : Block) (member : block ∈ blocks) :
    block.name = message.topic := by
  cases carries with
  | whole only number => rw [List.mem_singleton.mp member]
  | pieces name blocks payload fragments => exact fragments.named block member

/-- The rest of a message completes it: what had been got and what was left come
out as one message, and the state is empty again. -/
theorem Receiver.takeAll_continues {name : Bytes} {count : Nat} {blocks : List Block}
    {left : Bytes} (fragments : Continues name count blocks left)
    (sound : ∀ block ∈ blocks, block.Sound) (receiver : Receiver)
    (frag : Reassembly) (got : Bytes) (listening : receiver name = some frag)
    (holds : frag.Holds count got) :
    ∃ after, takeAll blocks receiver = (receiver.set name after, [⟨name, got ++ left⟩]) ∧
      after.Idle := by
  have fragment : ∀ (block : Block) (count : Nat), block.hdr.mFragNum.toNat = count + 1 →
      block.hdr.mFragNum ≠ 0 := by
    intro block count number zero
    rw [zero] at number
    simp at number
  induction fragments generalizing receiver frag got with
  | last count block named number marked =>
      have step := Tport.assemble_next frag count got block.hdr block.payload holds
        (sound block (by simp)).sized number
      simp only [marked, ↓reduceIte] at step
      obtain ⟨after, ran, empty⟩ := step
      subst named
      refine ⟨after, ?_, empty⟩
      simp only [takeAll_cons, take_fragment block receiver frag listening
        (fragment block count number), ran, takeAll_nil, Option.toList_some, List.map_cons,
        List.map_nil, List.append_nil]
  | more count block rest left named number unmarked later ih =>
      have step := Tport.assemble_next frag count got block.hdr block.payload holds
        (sound block (by simp)).sized number
      simp only [unmarked, Bool.false_eq_true, ↓reduceIte] at step
      obtain ⟨middle, ran, started⟩ := step
      subst named
      obtain ⟨after, finished, empty⟩ := ih (fun other member => sound other (by simp [member]))
        (receiver.set block.name middle) middle (got ++ block.payload)
        (set_self _ _ _) (Or.inr started)
      refine ⟨after, ?_, empty⟩
      simp only [takeAll_cons, take_fragment block receiver frag listening
        (fragment block count number), ran, finished, Option.toList_none, List.map_nil,
        List.nil_append, List.append_assoc, set_set]

/-- A message in its blocks comes out exactly when somebody listens to it. -/
theorem Receiver.takeAll_carries {blocks : List Block} {message : Message}
    (carries : Carries blocks message) (sound : ∀ block ∈ blocks, block.Sound)
    (receiver : Receiver) (idle : receiver.IdleAt message.topic) :
    ∃ after, takeAll blocks receiver = (after, receiver.wanted [message]) ∧
      after.IdleAt message.topic ∧ ∀ other, other ≠ message.topic → after other = receiver other := by
  cases carries with
  | whole block number =>
      cases lookup : receiver block.name with
      | none =>
          refine ⟨receiver, ?_, idle, fun _ _ => rfl⟩
          simp [wanted, lookup, take_deaf block receiver lookup]
      | some frag =>
          refine ⟨receiver, ?_, idle, fun _ _ => rfl⟩
          simp [wanted, lookup, take_whole block receiver frag lookup number]
  | pieces name blocks payload fragments =>
      cases lookup : receiver name with
      | none =>
          refine ⟨receiver, ?_, idle, fun _ _ => rfl⟩
          simp [wanted, lookup, takeAll_deaf name blocks receiver fragments.named lookup]
      | some frag =>
          obtain ⟨after, ran, empty⟩ := takeAll_continues fragments sound receiver frag []
            lookup (idle frag lookup).holds
          refine ⟨receiver.set name after, ?_, IdleAt.set receiver name after empty,
            fun other => set_other receiver name other after⟩
          simp [wanted, lookup, ran]

theorem Receiver.wanted_congr {left right : Receiver} (messages : List Message)
    (same : ∀ name, (left name).isSome = (right name).isSome) :
    left.wanted messages = right.wanted messages := by
  simp only [wanted, same]

/-- From an idle receiver, a sequence of messages comes out as it was put in, less
the topics nobody listens to. -/
theorem Receiver.takeAll_carriesAll {blocks : List Block} {messages : List Message}
    (carries : CarriesAll blocks messages) (sound : ∀ block ∈ blocks, block.Sound)
    (receiver : Receiver) (idle : receiver.Idle) :
    ∃ after, takeAll blocks receiver = (after, receiver.wanted messages) ∧ after.Idle := by
  obtain ⟨parts, rfl, carried⟩ := carries
  induction carried generalizing receiver with
  | nil => exact ⟨receiver, rfl, idle⟩
  | @cons part message parts messages first rest ih =>
      obtain ⟨middle, ran, emptyHere, others⟩ := takeAll_carries first
        (fun block member => sound block (by simp [member])) receiver (idle message.topic)
      have empty : middle.Idle := by
        intro name
        by_cases here : name = message.topic
        · exact here ▸ emptyHere
        · intro frag lookup
          exact idle name frag (by rw [← others name here, lookup])
      obtain ⟨after, finished, empty'⟩ :=
        ih middle empty (fun block member => sound block (by
          rw [List.flatten_cons, List.mem_append]
          exact Or.inr member))
      have same : ∀ name, (middle name).isSome = (receiver name).isSome := by
        intro name
        rw [← takeAll_isSome part receiver name, ran]
      refine ⟨after, ?_, empty'⟩
      rw [List.flatten_cons, takeAll_append, ran, finished, wanted_congr messages same]
      simp only [wanted, ← List.filter_append, List.singleton_append]

end Sbf
