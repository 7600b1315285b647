import Sbf.MessageBlocks

set_option autoImplicit false

namespace Sbf

open Octets

/-- What blocks still owe to a receiver that has got so many fragments, with these
bytes, of the message they start in. -/
inductive Owes (name : Bytes) : Nat → Bytes → List Block → List Message → Prop
  | between (blocks : List Block) (messages : List Message)
      (carries : CarriesAll blocks messages) : Owes name 0 [] blocks messages
  | within (count : Nat) (got : Bytes) (front : List Block) (left : Bytes) (back : List Block)
      (messages : List Message) (fragments : Continues name (count + 1) front left)
      (carries : CarriesAll back messages) :
      Owes name (count + 1) got (front ++ back) (⟨name, got ++ left⟩ :: messages)

theorem Carries.nonempty {blocks : List Block} {message : Message}
    (carries : Carries blocks message) : blocks ≠ [] := by
  cases carries with
  | whole block number => simp
  | pieces name blocks payload fragments => cases fragments <;> simp

theorem Owes.carries {name : Bytes} {count : Nat} {got : Bytes} {blocks : List Block}
    {messages : List Message} (owes : Owes name count got blocks messages) (zero : count = 0) :
    CarriesAll blocks messages := by
  cases owes with
  | between blocks messages carries => exact carries
  | within => cases zero

theorem Owes.got_nil {name : Bytes} {count : Nat} {got : Bytes} {blocks : List Block}
    {messages : List Message} (owes : Owes name count got blocks messages) (zero : count = 0) :
    got = [] := by
  cases owes with
  | between => rfl
  | within => cases zero

/-- Inside a message the next block is its next fragment. -/
theorem Owes.next {name : Bytes} {count : Nat} {got : Bytes} {blocks : List Block}
    {messages : List Message} (owes : Owes name count got blocks messages) (started : 0 < count) :
    ∃ block rest, blocks = block :: rest ∧ block.fragNum = count + 1 := by
  cases owes with
  | between => exact absurd started (Nat.lt_irrefl 0)
  | within count got front left back messages fragments carries =>
      cases fragments with
      | last _ block _ number _ => exact ⟨block, back, rfl, number⟩
      | more _ block rest _ _ number _ _ => exact ⟨block, rest ++ back, rfl, number⟩

/-- Without blocks there is nothing to owe. -/
theorem Owes.done {name : Bytes} {count : Nat} {got : Bytes} {messages : List Message}
    (owes : Owes name count got [] messages) : messages = [] := by
  by_cases zero : count = 0
  · obtain ⟨parts, flat, carried⟩ := owes.carries zero
    cases carried with
    | nil => rfl
    | cons first rest => exact absurd (List.append_eq_nil_iff.mp flat).1 first.nonempty
  · obtain ⟨block, rest, impossible, _⟩ := owes.next (Nat.pos_of_ne_zero zero)
    cases impossible

/-- The message in front, in blocks that carry messages. -/
theorem CarriesAll.cons_inv {block : Block} {rest : List Block} {messages : List Message}
    (carries : CarriesAll (block :: rest) messages) :
    ∃ message others front back, messages = message :: others ∧ rest = front ++ back ∧
      Carries (block :: front) message ∧ CarriesAll back others := by
  obtain ⟨parts, flat, carried⟩ := carries
  cases carried with
  | nil => cases flat
  | @cons part message parts others first later =>
      obtain ⟨head, front, rfl⟩ := List.exists_cons_of_ne_nil first.nonempty
      rw [List.flatten_cons, List.cons_append, List.cons.injEq] at flat
      obtain ⟨rfl, rfl⟩ := flat
      exact ⟨message, others, front, parts.flatten, rfl, rfl, first, parts, rfl, later⟩

/-- One block, taken by a receiver that is where the blocks are. -/
theorem Owes.take {name : Bytes} {count : Nat} {got : Bytes} {block : Block} {rest : List Block}
    {messages : List Message} (owes : Owes name count got (block :: rest) messages)
    (named : block.name = name) (sound : block.Sound) (receiver : Receiver) (frag : Reassembly)
    (listening : receiver name = some frag) (holds : frag.Holds count got) :
    ∃ frag' count' got' out messages',
      Receiver.take block receiver = (receiver.set name frag', out) ∧
      frag'.Holds count' got' ∧ Owes name count' got' rest messages' ∧
      messages = out ++ messages' := by
  subst named
  -- A fragment that is due, in front of what continues it.
  have due : ∀ (count : Nat) (got : Bytes) (front back : List Block) (left : Bytes)
      (others : List Message), frag.Holds count got →
      Continues block.name count (block :: front) left → CarriesAll back others →
      ∃ frag' count' got' out messages',
        Receiver.take block receiver = (receiver.set block.name frag', out) ∧
        frag'.Holds count' got' ∧ Owes block.name count' got' (front ++ back) messages' ∧
        ⟨block.name, got ++ left⟩ :: others = out ++ messages' := by
    intro count got front back left others holds fragments carries
    cases fragments with
    | last _ _ _ number marked =>
        have step := Tport.assemble_next frag count got block.hdr block.payload holds sound.sized
          number
        simp only [marked, ↓reduceIte] at step
        obtain ⟨after, ran, empty⟩ := step
        have fragment : block.hdr.mFragNum ≠ 0 := by
          intro zero
          rw [zero] at number
          simp at number
        refine ⟨after, 0, [], [⟨block.name, got ++ block.payload⟩], others, ?_, empty.holds,
          .between back others carries, rfl⟩
        rw [Receiver.take_fragment block receiver frag listening fragment, ran]
        rfl
    | more _ _ _ left _ number unmarked later =>
        have step := Tport.assemble_next frag count got block.hdr block.payload holds sound.sized
          number
        simp only [unmarked, Bool.false_eq_true, ↓reduceIte] at step
        obtain ⟨after, ran, started⟩ := step
        have fragment : block.hdr.mFragNum ≠ 0 := by
          intro zero
          rw [zero] at number
          simp at number
        refine ⟨after, count + 1, got ++ block.payload, [], _, ?_, Or.inr started,
          .within count (got ++ block.payload) front left back others later carries, ?_⟩
        · rw [Receiver.take_fragment block receiver frag listening fragment, ran]
          rfl
        · rw [List.nil_append, List.append_assoc]
  generalize shape : block :: rest = blocks at owes
  cases owes with
  | between blocks messages carries =>
      subst shape
      obtain ⟨message, others, front, back, rfl, rfl, first, later⟩ := carries.cons_inv
      cases first with
      | whole block number =>
          refine ⟨frag, 0, [], [⟨block.name, block.payload⟩], others, ?_, holds,
            .between back others later, rfl⟩
          rw [Receiver.take_whole block receiver frag listening number,
            Receiver.set_same receiver block.name frag listening]
      | pieces name _ payload fragments =>
          obtain rfl : block.name = name := fragments.named block (by simp)
          exact due 0 [] front back payload others holds fragments later
  | within count got front left back messages fragments carries =>
      obtain ⟨head, others, rfl⟩ : ∃ head others, front = head :: others := by
        cases fragments with
        | last _ head _ _ _ => exact ⟨head, [], rfl⟩
        | more _ head others _ _ _ _ _ => exact ⟨head, others, rfl⟩
      rw [List.cons_append, List.cons.injEq] at shape
      obtain ⟨rfl, rfl⟩ := shape
      exact due (count + 1) got others back left messages holds fragments carries

/-- Any stretch of the blocks. -/
theorem Owes.takeAll {name : Bytes} {count : Nat} {got : Bytes} {blocks rest : List Block}
    {messages : List Message} (owes : Owes name count got (blocks ++ rest) messages)
    (named : ∀ block ∈ blocks, block.name = name) (sound : ∀ block ∈ blocks, block.Sound)
    (receiver : Receiver) (frag : Reassembly) (listening : receiver name = some frag)
    (holds : frag.Holds count got) :
    ∃ frag' count' got' out messages',
      Receiver.takeAll blocks receiver = (receiver.set name frag', out) ∧
      frag'.Holds count' got' ∧ Owes name count' got' rest messages' ∧
      messages = out ++ messages' := by
  induction blocks generalizing count got messages receiver frag with
  | nil =>
      exact ⟨frag, count, got, [], messages, by
        rw [Receiver.set_same receiver name frag listening]
        rfl, holds, owes, rfl⟩
  | cons block blocks ih =>
      obtain ⟨middle, count', got', out, messages', ran, held, owed, rfl⟩ := owes.take
        (named block (by simp)) (sound block (by simp)) receiver frag listening holds
      obtain ⟨frag', count'', got'', out', messages'', ran', held', owed', rfl⟩ := ih owed
        (fun other member => named other (by simp [member]))
        (fun other member => sound other (by simp [member])) (receiver.set name middle) middle
        (Receiver.set_self _ _ _) held
      refine ⟨frag', count'', got'', out ++ out', messages'', ?_, held', owed',
        (List.append_assoc _ _ _).symm⟩
      rw [Receiver.takeAll_cons, ran, ran', Receiver.set_set]

/-- Whole messages pass by whatever is being put together. -/
theorem Owes.takeAll_whole {name : Bytes} {blocks rest : List Block} {messages : List Message}
    (owes : Owes name 0 [] (blocks ++ rest) messages)
    (named : ∀ block ∈ blocks, block.name = name)
    (whole : ∀ block ∈ blocks, block.hdr.mFragNum = 0)
    (receiver : Receiver) (frag : Reassembly) (listening : receiver name = some frag) :
    ∃ out messages', Receiver.takeAll blocks receiver = (receiver, out) ∧
      Owes name 0 [] rest messages' ∧ messages = out ++ messages' := by
  induction blocks generalizing messages with
  | nil => exact ⟨[], messages, rfl, owes, rfl⟩
  | cons block blocks ih =>
      obtain ⟨message, others, front, back, rfl, shape, first, later⟩ :=
        (owes.carries rfl).cons_inv
      have number := whole block (by simp)
      have alone : front = [] ∧ message = ⟨block.name, block.payload⟩ := by
        generalize here : block :: front = part at first
        cases first with
        | whole other _ =>
            rw [List.cons.injEq] at here
            exact ⟨here.2, by rw [here.1]⟩
        | pieces _ _ payload fragments =>
            subst here
            have started : block.hdr.mFragNum.toNat = 0 + 1 := by
              cases fragments with
              | last _ _ _ number _ => exact number
              | more _ _ _ _ _ number _ _ => exact number
            rw [number] at started
            cases started
      obtain ⟨rfl, rfl⟩ := alone
      subst shape
      obtain ⟨out, messages', ran, owed, rfl⟩ := ih (.between (blocks ++ rest) others later)
        (fun other member => named other (by simp [member]))
        (fun other member => whole other (by simp [member]))
      have here : receiver block.name = some frag := by
        rw [named block (by simp), listening]
      refine ⟨⟨block.name, block.payload⟩ :: out, messages', ?_, owed, rfl⟩
      rw [Receiver.takeAll_cons, Receiver.take_whole block receiver frag here number, ran]
      rfl

end Sbf
