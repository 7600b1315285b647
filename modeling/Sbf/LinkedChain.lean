import Mathlib.Data.List.Chain
import Mathlib.Data.List.Nodup
import Mathlib.Logic.Function.Basic

set_option autoImplicit false

/-! A linked list to which threads append without a lock. Each of them exchanges the head
for its node and only then links the node before to it, so links may be missing anywhere
in the list for as long as a thread stands between the two. -/

/-- How far a thread is with a node: it has yet to clear the node's link, to exchange the
node for the head, or to link the node before to it. -/
inductive Appending (α : Type) where
  | clear (node : α)
  | exchange (node : α)
  | link (node last : α)

def Appending.node {α : Type} : Appending α → α
  | .clear node | .exchange node | .link node _ => node

/-- Only the link is left to do. -/
def Appending.linking {α : Type} : Appending α → Bool
  | .link _ _ => true
  | _ => false

structure Links (α τ : Type) where
  head : α
  next : α → Option α
  threads : τ → Option (Appending α)

namespace Links

variable {α τ : Type}

/-- The thread has a node that is not in the list yet. -/
def Brings (links : Links α τ) (thread : τ) (node : α) : Prop :=
  links.threads thread = some (.clear node) ∨ links.threads thread = some (.exchange node)

/-- A node is linked to the one behind it, or a thread is about to do so. -/
def Follows (links : Links α τ) (last node : α) : Prop :=
  links.next last = some node ∨
    (links.next last = none ∧ ∃ thread, links.threads thread = some (.link node last))

/-- The nodes of the list, in the order of their exchanges. -/
structure Chained (links : Links α τ) (chain : List α) : Prop where
  last : chain.getLast? = some links.head
  distinct : chain.Nodup
  linked : chain.IsChain links.Follows
  ends : links.next links.head = none
  outside : ∀ thread node, links.Brings thread node → node ∉ chain
  apart : ∀ one other node, links.Brings one node → links.Brings other node → one = other
  cleared : ∀ thread node, links.threads thread = some (.exchange node) → links.next node = none
  linking : ∀ thread node last, links.threads thread = some (.link node last) →
    last ∈ chain ∧ last ≠ links.head ∧ links.next last = none
  single : ∀ one other node node' last, links.threads one = some (.link node last) →
    links.threads other = some (.link node' last) → one = other

/-- A list of one node, to which nobody is appending. -/
theorem chained_singleton (head : α) (next : α → Option α) (ends : next head = none) :
    Chained (⟨head, next, fun _ : τ => none⟩ : Links α τ) [head] where
  last := rfl
  distinct := List.nodup_singleton head
  linked := .singleton head
  ends := ends
  outside _ _ brings := by rcases brings with brings | brings <;> cases brings
  apart _ _ _ brings := by rcases brings with brings | brings <;> cases brings
  cleared _ _ exchanges := by cases exchanges
  linking _ _ _ links := by cases links
  single _ _ _ _ _ links := by cases links

namespace Chained

variable {links : Links α τ} {chain : List α}

theorem head_mem (chained : Chained links chain) : links.head ∈ chain :=
  List.mem_of_getLast? chained.last

/-- The first node may leave once it is linked to the second. -/
theorem leave {first second : α} {rest : List α}
    (chained : Chained links (first :: second :: rest)) (linked : links.next first = some second) :
    Chained links (second :: rest) where
  last := by rw [← chained.last, List.getLast?_cons_cons]
  distinct := (List.nodup_cons.mp chained.distinct).2
  linked := (List.isChain_cons_cons.mp chained.linked).2
  ends := chained.ends
  outside thread node brings inside :=
    chained.outside thread node brings (List.mem_cons_of_mem _ inside)
  apart := chained.apart
  cleared := chained.cleared
  linking thread node last links' := by
    obtain ⟨inside, before, open_⟩ := chained.linking thread node last links'
    refine ⟨?_, before, open_⟩
    rcases List.mem_cons.mp inside with rfl | inside
    · cases open_.symm.trans linked
    · exact inside
  single := chained.single

/-- What a node is linked to is behind it. -/
theorem second {first node : α} {rest : List α} (chained : Chained links (first :: rest))
    (linked : links.next first = some node) : ∃ rest', rest = node :: rest' := by
  cases rest with
  | nil =>
      have same : first = links.head := Option.some.inj chained.last
      rw [same, chained.ends] at linked
      cases linked
  | cons other rest =>
      rcases (List.isChain_cons_cons.mp chained.linked).1 with same | ⟨open_, _⟩
      · cases linked.symm.trans same
        exact ⟨rest, rfl⟩
      · cases linked.symm.trans open_

/-- A node without a link is the last, or a thread is about to link it. -/
theorem broken {first : α} {rest : List α} (chained : Chained links (first :: rest))
    (open_ : links.next first = none) :
    rest = [] ∨ ∃ thread node, links.threads thread = some (.link node first) := by
  cases rest with
  | nil => exact Or.inl rfl
  | cons other rest =>
      rcases (List.isChain_cons_cons.mp chained.linked).1 with linked | ⟨_, thread, links'⟩
      · cases linked.symm.trans open_
      · exact Or.inr ⟨thread, other, links'⟩

/-- With its head at the front the list has no other node. -/
theorem alone {first : α} {rest : List α} (chained : Chained links (first :: rest))
    (same : first = links.head) : rest = [] := by
  cases rest with
  | nil => rfl
  | cons other rest =>
      have absent := (List.nodup_cons.mp chained.distinct).1
      have inside : links.head ∈ other :: rest := by
        have last := chained.last
        rw [List.getLast?_cons_cons] at last
        exact List.mem_of_getLast? last
      exact absurd (same ▸ inside) absent

/-- In a chain every node but the last has one behind it. -/
theorem exists_behind {R : α → α → Prop} {last : α} (linked : chain.IsChain R) (member : last ∈ chain)
    (before : chain.getLast? ≠ some last) : ∃ node ∈ chain.tail, R last node := by
  induction chain with
  | nil => cases member
  | cons first rest ih =>
      cases rest with
      | nil =>
          rw [List.mem_singleton.mp member] at before
          exact absurd rfl before
      | cons second rest =>
          obtain ⟨here, linked⟩ := List.isChain_cons_cons.mp linked
          rcases List.mem_cons.mp member with rfl | member
          · exact ⟨second, List.mem_cons_self, here⟩
          · obtain ⟨node, inside, follows⟩ :=
              ih linked member (by rwa [List.getLast?_cons_cons] at before)
            exact ⟨node, List.mem_of_mem_tail inside, follows⟩

/-- A node that is about to be linked is not the first. -/
theorem link_mem_tail (chained : Chained links chain) {thread : τ} {node last : α}
    (links' : links.threads thread = some (.link node last)) : node ∈ chain.tail := by
  obtain ⟨member, before, open_⟩ := chained.linking thread node last links'
  have before' : chain.getLast? ≠ some last := by
    rw [chained.last]
    exact fun same => before (Option.some.inj same).symm
  obtain ⟨other, inside, linked | ⟨_, who, links''⟩⟩ :=
    exists_behind chained.linked member before'
  · cases open_.symm.trans linked
  · obtain rfl := chained.single who thread other node last links'' links'
    cases links'.symm.trans links''
    exact inside

end Chained

variable [DecidableEq α] [DecidableEq τ]

/-- A thread begins with a node. -/
def start (thread : τ) (node : α) (links : Links α τ) : Links α τ :=
  { links with threads := Function.update links.threads thread (some (.clear node)) }

/-- The next step of a thread, if it has a node. -/
def append (thread : τ) (links : Links α τ) : Links α τ :=
  match links.threads thread with
  | none => links
  | some (.clear node) => { links with
      next := Function.update links.next node none
      threads := Function.update links.threads thread (some (.exchange node)) }
  | some (.exchange node) => { links with
      head := node
      threads := Function.update links.threads thread (some (.link node links.head)) }
  | some (.link node last) => { links with
      next := Function.update links.next last (some node)
      threads := Function.update links.threads thread none }

/-- The node that the next step of a thread exchanges for the head. -/
def exchanged (thread : τ) (links : Links α τ) : List α :=
  match links.threads thread with
  | some (.exchange node) => [node]
  | _ => []

omit [DecidableEq α] in
theorem update_some {threads : τ → Option (Appending α)} {thread other : τ}
    {new : Option (Appending α)} {appending : Appending α} :
    Function.update threads thread new other = some appending ↔
      (other = thread ∧ new = some appending) ∨
        (other ≠ thread ∧ threads other = some appending) := by
  by_cases here : other = thread
  · subst here
    simp
  · simp [here]

namespace Chained

variable {links : Links α τ} {chain : List α} {thread : τ} {node : α}

omit [DecidableEq α] in
/-- A node that is neither in the list nor with a thread may be appended. -/
theorem start (chained : Chained links chain) (idle : links.threads thread = none)
    (absent : node ∉ chain) (nobody : ∀ other, ¬ links.Brings other node) :
    Chained (links.start thread node) chain := by
  have brings : ∀ other node', (links.start thread node).Brings other node' →
      links.Brings other node' ∨ (other = thread ∧ node' = node) := by
    rintro other node' (has | has)
    · rcases update_some.mp has with ⟨here, same⟩ | ⟨_, has⟩
      · cases same
        exact Or.inr ⟨here, rfl⟩
      · exact Or.inl (Or.inl has)
    · rcases update_some.mp has with ⟨_, same⟩ | ⟨_, has⟩
      · cases same
      · exact Or.inl (Or.inr has)
  have old : ∀ other node' last, (links.start thread node).threads other = some (.link node' last) →
      links.threads other = some (.link node' last) := by
    intro other node' last has
    rcases update_some.mp has with ⟨_, same⟩ | ⟨_, has⟩
    · cases same
    · exact has
  refine ⟨chained.last, chained.distinct, ?_, chained.ends, ?_, ?_, ?_, ?_, ?_⟩
  · refine chained.linked.imp ?_
    rintro one other (linked | ⟨open_, who, links'⟩)
    · exact Or.inl linked
    · refine Or.inr ⟨open_, who, update_some.mpr (Or.inr ⟨?_, links'⟩)⟩
      rintro rfl
      cases idle.symm.trans links'
  · intro other node' has
    rcases brings other node' has with has | ⟨_, rfl⟩
    · exact chained.outside other node' has
    · exact absent
  · intro one other node' first second
    rcases brings one node' first with had | ⟨rfl, rfl⟩
    · rcases brings other node' second with had' | ⟨rfl, rfl⟩
      · exact chained.apart one other node' had had'
      · exact absurd had (nobody one)
    · rcases brings other _ second with had | ⟨rfl, _⟩
      · exact absurd had (nobody other)
      · rfl
  · intro other node' has
    rcases update_some.mp has with ⟨_, same⟩ | ⟨_, has⟩
    · cases same
    · exact chained.cleared other node' has
  · exact fun other node' last has => chained.linking other node' last (old _ _ _ has)
  · exact fun one other node' node'' last first second =>
      chained.single one other node' node'' last (old _ _ _ first) (old _ _ _ second)

/-- Clearing a node that is not in the list is no change to the list. -/
theorem clear (chained : Chained links chain)
    (clears : links.threads thread = some (.clear node)) : Chained (links.append thread) chain := by
  have absent : node ∉ chain := chained.outside thread node (Or.inl clears)
  have next : (links.append thread).next = Function.update links.next node none := by
    simp only [append, clears]
  have head : (links.append thread).head = links.head := by simp only [append, clears]
  have threads : (links.append thread).threads =
      Function.update links.threads thread (some (.exchange node)) := by
    simp only [append, clears]
  have inside : ∀ other ∈ chain, (links.append thread).next other = links.next other := by
    rintro other member
    rw [next, Function.update_of_ne]
    rintro rfl
    exact absent member
  have brings : ∀ other node', (links.append thread).Brings other node' →
      links.Brings other node' := by
    rintro other node' (has | has) <;> rw [threads] at has <;>
      rcases update_some.mp has with ⟨rfl, same⟩ | ⟨_, has⟩
    · cases same
    · exact Or.inl has
    · cases same
      exact Or.inl clears
    · exact Or.inr has
  have old : ∀ other node' last, (links.append thread).threads other = some (.link node' last) →
      links.threads other = some (.link node' last) := by
    intro other node' last has
    rw [threads] at has
    rcases update_some.mp has with ⟨_, same⟩ | ⟨_, has⟩
    · cases same
    · exact has
  refine ⟨by rw [head]; exact chained.last, chained.distinct, ?_, ?_, ?_, ?_, ?_, ?_, ?_⟩
  · refine chained.linked.imp_of_mem_imp ?_
    rintro one other member _ (linked | ⟨open_, who, links'⟩)
    · exact Or.inl ((inside one member).trans linked)
    · refine Or.inr ⟨(inside one member).trans open_, who, ?_⟩
      rw [threads]
      refine update_some.mpr (Or.inr ⟨?_, links'⟩)
      rintro rfl
      cases clears.symm.trans links'
  · rw [head, inside _ chained.head_mem]
    exact chained.ends
  · exact fun other node' has => chained.outside other node' (brings _ _ has)
  · exact fun one other node' first second =>
      chained.apart one other node' (brings _ _ first) (brings _ _ second)
  · intro other node' has
    rw [threads] at has
    rw [next, Function.update_apply]
    split
    · rfl
    · rename_i differs
      rcases update_some.mp has with ⟨_, same⟩ | ⟨_, has⟩
      · cases same
        exact absurd rfl differs
      · exact chained.cleared other node' has
  · intro other node' last has
    obtain ⟨member, before, open_⟩ := chained.linking other node' last (old _ _ _ has)
    exact ⟨member, by rwa [head], (inside last member).trans open_⟩
  · exact fun one other node' node'' last first second =>
      chained.single one other node' node'' last (old _ _ _ first) (old _ _ _ second)

/-- The exchange puts the node at the end of the list; its link is still missing. -/
theorem exchange (chained : Chained links chain)
    (exchanges : links.threads thread = some (.exchange node)) :
    Chained (links.append thread) (chain ++ [node]) := by
  have absent : node ∉ chain := chained.outside thread node (Or.inr exchanges)
  have next : (links.append thread).next = links.next := by simp only [append, exchanges]
  have head : (links.append thread).head = node := by simp only [append, exchanges]
  have threads : (links.append thread).threads =
      Function.update links.threads thread (some (.link node links.head)) := by
    simp only [append, exchanges]
  have brings : ∀ other node', (links.append thread).Brings other node' →
      other ≠ thread ∧ links.Brings other node' := by
    rintro other node' (has | has) <;> rw [threads] at has <;>
      rcases update_some.mp has with ⟨_, same⟩ | ⟨differs, has⟩
    · cases same
    · exact ⟨differs, Or.inl has⟩
    · cases same
    · exact ⟨differs, Or.inr has⟩
  have follows : ∀ one other, links.Follows one other → (links.append thread).Follows one other := by
    rintro one other (linked | ⟨open_, who, links'⟩)
    · exact Or.inl (by rwa [next])
    · refine Or.inr ⟨by rwa [next], who, ?_⟩
      rw [threads]
      refine update_some.mpr (Or.inr ⟨?_, links'⟩)
      rintro rfl
      cases exchanges.symm.trans links'
  refine ⟨by rw [head, List.getLast?_concat], ?_, ?_, ?_, ?_, ?_, ?_, ?_, ?_⟩
  · refine List.nodup_append.mpr ⟨chained.distinct, List.nodup_singleton _, ?_⟩
    rintro one member other (_ | ⟨_, ⟨⟩⟩) rfl
    exact absent member
  · refine List.IsChain.append (chained.linked.imp follows) (.singleton _) ?_
    rintro one last other (_ | _)
    rw [chained.last] at last
    cases last
    refine Or.inr ⟨by rw [next]; exact chained.ends, thread, ?_⟩
    rw [threads, Function.update_self]
  · rw [head, next]
    exact chained.cleared thread node exchanges
  · intro other node' has inside
    obtain ⟨differs, has⟩ := brings other node' has
    rcases List.mem_append.mp inside with inside | inside
    · exact chained.outside other node' has inside
    · obtain rfl := List.mem_singleton.mp inside
      exact differs (chained.apart other thread _ has (Or.inr exchanges))
  · exact fun one other node' first second =>
      chained.apart one other node' (brings _ _ first).2 (brings _ _ second).2
  · intro other node' has
    rw [threads] at has
    rw [next]
    rcases update_some.mp has with ⟨_, same⟩ | ⟨_, has⟩
    · cases same
    · exact chained.cleared other node' has
  · intro other node' last has
    rw [threads] at has
    rw [head, next]
    rcases update_some.mp has with ⟨_, same⟩ | ⟨_, has⟩
    · cases same
      refine ⟨List.mem_append_left _ chained.head_mem, ?_, chained.ends⟩
      rintro rfl
      exact absent chained.head_mem
    · obtain ⟨member, _, open_⟩ := chained.linking other node' last has
      refine ⟨List.mem_append_left _ member, ?_, open_⟩
      rintro rfl
      exact absent member
  · intro one other node' node'' last first second
    rw [threads] at first second
    rcases update_some.mp first with ⟨rfl, same⟩ | ⟨_, had⟩
    · cases same
      rcases update_some.mp second with ⟨rfl, _⟩ | ⟨_, had⟩
      · rfl
      · exact absurd rfl (chained.linking other node'' _ had).2.1
    · rcases update_some.mp second with ⟨rfl, same⟩ | ⟨_, had'⟩
      · cases same
        exact absurd rfl (chained.linking one node' _ had).2.1
      · exact chained.single one other node' node'' last had had'

/-- The link that was missing is there. -/
theorem link {last : α} (chained : Chained links chain)
    (links' : links.threads thread = some (.link node last)) :
    Chained (links.append thread) chain := by
  obtain ⟨member, before, open_⟩ := chained.linking thread node last links'
  have next : (links.append thread).next = Function.update links.next last (some node) := by
    simp only [append, links']
  have head : (links.append thread).head = links.head := by simp only [append, links']
  have threads : (links.append thread).threads = Function.update links.threads thread none := by
    simp only [append, links']
  have old : ∀ other appending, (links.append thread).threads other = some appending →
      other ≠ thread ∧ links.threads other = some appending := by
    intro other appending has
    rw [threads] at has
    rcases update_some.mp has with ⟨_, same⟩ | has
    · cases same
    · exact has
  have brings : ∀ other node', (links.append thread).Brings other node' →
      links.Brings other node' := by
    rintro other node' (has | has)
    · exact Or.inl (old _ _ has).2
    · exact Or.inr (old _ _ has).2
  refine ⟨by rw [head]; exact chained.last, chained.distinct, ?_, ?_, ?_, ?_, ?_, ?_, ?_⟩
  · refine chained.linked.imp ?_
    intro one other follows
    by_cases here : one = last
    · subst here
      rcases follows with linked | ⟨_, who, links''⟩
      · cases open_.symm.trans linked
      · obtain rfl := chained.single who thread other node one links'' links'
        cases links'.symm.trans links''
        exact Or.inl (by rw [next, Function.update_self])
    · have same : (links.append thread).next one = links.next one := by
        rw [next, Function.update_of_ne here]
      rcases follows with linked | ⟨open_', who, links''⟩
      · exact Or.inl (same.trans linked)
      · refine Or.inr ⟨same.trans open_', who, ?_⟩
        rw [threads]
        refine update_some.mpr (Or.inr ⟨?_, links''⟩)
        rintro rfl
        cases links'.symm.trans links''
        exact here rfl
  · rw [head, next, Function.update_of_ne before.symm]
    exact chained.ends
  · exact fun other node' has => chained.outside other node' (brings _ _ has)
  · exact fun one other node' first second =>
      chained.apart one other node' (brings _ _ first) (brings _ _ second)
  · intro other node' has
    have differs : node' ≠ last := by
      rintro rfl
      exact chained.outside other node' (brings _ _ (Or.inr has)) member
    rw [next, Function.update_of_ne differs]
    exact chained.cleared other node' (old _ _ has).2
  · intro other node' last' has
    obtain ⟨differs, has⟩ := old _ _ has
    obtain ⟨member', before', open_'⟩ := chained.linking other node' last' has
    have apart : last' ≠ last := by
      rintro rfl
      exact differs (chained.single other thread node' node last' has links')
    exact ⟨member', by rwa [head], by rwa [next, Function.update_of_ne apart]⟩
  · exact fun one other node' node'' last' first second =>
      chained.single one other node' node'' last' (old _ _ first).2 (old _ _ second).2

/-- Every step of a thread keeps the list, and an exchange makes it longer. -/
theorem append (chained : Chained links chain) (thread : τ) :
    Chained (links.append thread) (chain ++ links.exchanged thread) := by
  cases shape : links.threads thread with
  | none =>
      have same : links.append thread = links := by simp only [Links.append, shape]
      rw [same, exchanged, shape, List.append_nil]
      exact chained
  | some appending =>
      cases appending with
      | clear node =>
          rw [exchanged, shape, List.append_nil]
          exact chained.clear shape
      | exchange node =>
          rw [exchanged, shape]
          exact chained.exchange shape
      | link node last =>
          rw [exchanged, shape, List.append_nil]
          exact chained.link shape

/-- What a node of the list is linked to stays. -/
theorem append_next {first second : α} (chained : Chained links chain) (member : first ∈ chain)
    (linked : links.next first = some second) (thread : τ) :
    (links.append thread).next first = some second := by
  unfold Links.append
  split
  · exact linked
  · rename_i node clears
    refine (Function.update_of_ne ?_ _ _).trans linked
    rintro rfl
    exact chained.outside thread first (Or.inl clears) member
  · exact linked
  · rename_i node last links'
    refine (Function.update_of_ne ?_ _ _).trans linked
    rintro rfl
    cases linked.symm.trans (chained.linking thread node first links').2.2

end Chained

end Links
