import Sbf.RbTree
import Sbf.SysTreeSearch

set_option autoImplicit false

namespace RbTree

variable {κ ν : Type} [LinearOrder κ]

/-- The value at the first key that is not smaller. -/
def atLeast (tree : RbTree κ ν) (key : κ) : Option ν :=
  (tree.entries.find? (fun entry => key ≤ entry.1)).map (·.2)

/-- The value at the first larger key. -/
def above (tree : RbTree κ ν) (key : κ) : Option ν :=
  (tree.entries.find? (fun entry => key < entry.1)).map (·.2)

/-- The value at the last smaller key. -/
def below (tree : RbTree κ ν) (key : κ) : Option ν :=
  (tree.entries.reverse.find? (fun entry => entry.1 < key)).map (·.2)

theorem place_between (key : κ) (value : ν) (before after : List (κ × ν))
    (smaller : ∀ entry ∈ before, entry.1 < key) (larger : ∀ entry ∈ after, key < entry.1) :
    place key value (before ++ after) = before ++ (key, value) :: after := by
  induction before with
  | nil =>
      cases after with
      | nil => rfl
      | cons first rest =>
          rw [List.nil_append, List.nil_append, place, if_pos (larger first List.mem_cons_self)]
  | cons first rest ih =>
      have less := smaller first List.mem_cons_self
      rw [List.cons_append, place, if_neg less.not_gt, if_pos less,
        ih (fun entry inside => smaller entry (List.mem_cons_of_mem _ inside))]
      rfl

end RbTree

namespace Sbf.SysTree

open RedBlack

variable {ι κ : Type} [LinearOrder κ]

/-- The elements of a table are those of a red-black tree in memory, in the order of their
keys. -/
def Represents (heap : LinkHeap ι) (key : ι → κ) (table : RbTree κ ι) : Prop :=
  ∃ tree, heap.Held tree 0 ∧ RedBlackTree tree ∧
    table.entries = (tree.walk .right).map (fun elm => (key elm, elm))

section Lists

variable {key : ι → κ} {elm : ι} {before after : List ι}

theorem head?_after (sorted : InOrder key (before ++ elm :: after)) :
    (before ++ elm :: after).find? (fun other => key elm < key other) = after.head? := by
  obtain ⟨-, -, smaller, larger⟩ := InOrder.split sorted
  have none : before.find? (fun other => key elm < key other) = none :=
    List.find?_eq_none.mpr fun other inside => by simpa using (smaller other inside).le
  rw [List.find?_append, none, Option.none_or, List.find?_cons_of_neg (by simp)]
  cases after with
  | nil => rfl
  | cons first rest =>
      exact List.find?_cons_of_pos (by simpa using larger first List.mem_cons_self)

theorem head?_before (sorted : InOrder key (before ++ elm :: after)) :
    (before ++ elm :: after).reverse.find? (fun other => key other < key elm) =
      before.reverse.head? := by
  obtain ⟨-, -, smaller, larger⟩ := InOrder.split sorted
  have none : after.reverse.find? (fun other => key other < key elm) = none :=
    List.find?_eq_none.mpr fun other inside => by
      simpa using (larger other (List.mem_reverse.mp inside)).le
  rw [List.reverse_append, List.reverse_cons, List.append_assoc, List.find?_append, none,
    Option.none_or, List.singleton_append, List.find?_cons_of_neg (by simp)]
  cases same : before.reverse with
  | nil => rfl
  | cons first rest =>
      have inside : first ∈ before := by
        rw [← List.mem_reverse, same]
        exact List.mem_cons_self
      exact List.find?_cons_of_pos (by simpa using smaller first inside)

end Lists

section Walks

variable {heap : LinkHeap ι} {key : ι → κ} {table : RbTree κ ι} {tree : ColorTree ι} {elm : ι}
  (walked : table.entries = (tree.walk .right).map (fun elm => (key elm, elm)))

include walked

theorem inOrder_of_table : InOrder key (tree.walk .right) := by
  have sorted := table.sorted
  rwa [walked, List.pairwise_map] at sorted

theorem find_of_walk (k : κ) :
    table.find k = (tree.walk .right).find? (fun other => key other = k) := by
  rw [RbTree.find, RbTree.lookup, walked, List.find?_map, Option.map_map]
  exact congrFun Option.map_id _

theorem atLeast_of_walk (k : κ) :
    table.atLeast k = (tree.walk .right).find? (fun other => k ≤ key other) := by
  rw [RbTree.atLeast, walked, List.find?_map, Option.map_map]
  exact congrFun Option.map_id _

theorem above_of_walk (k : κ) :
    table.above k = (tree.walk .right).find? (fun other => k < key other) := by
  rw [RbTree.above, walked, List.find?_map, Option.map_map]
  exact congrFun Option.map_id _

theorem below_of_walk (k : κ) :
    table.below k = (tree.walk .right).reverse.find? (fun other => key other < k) := by
  rw [RbTree.below, walked, ← List.map_reverse, List.find?_map, Option.map_map]
  exact congrFun Option.map_id _

theorem mem_walk_iff : elm ∈ tree.walk .right ↔ table.find (key elm) = some elm := by
  rw [RbTree.find, ← RbTree.mem_entries_iff _ table.sorted, walked, List.mem_map]
  constructor
  · exact fun inside => ⟨elm, inside, rfl⟩
  · rintro ⟨other, inside, same⟩
    rwa [← (Prod.mk.inj same).2]

/-- What the table has above and below an element is next to it on the walk. -/
theorem beside_of_walk {before after : List ι} (split : tree.walk .right = before ++ elm :: after) :
    table.above (key elm) = after.head? ∧ table.below (key elm) = before.reverse.head? := by
  have sorted := inOrder_of_table walked
  rw [above_of_walk walked, below_of_walk walked, split]
  rw [split] at sorted
  exact ⟨head?_after sorted, head?_before sorted⟩

/-- An element with a new key among the others. -/
theorem set_of_walk {before after : List ι} {new : ColorTree ι}
    (split : tree.walk .right = before ++ after) (grown : new.walk .right = before ++ elm :: after)
    (smaller : ∀ other ∈ before, key other < key elm)
    (larger : ∀ other ∈ after, key elm < key other) :
    (table.set (key elm) elm).entries = (new.walk .right).map (fun elm => (key elm, elm)) := by
  change RbTree.place (key elm) elm table.entries = _
  rw [walked, split, List.map_append, grown, List.map_append, List.map_cons]
  refine RbTree.place_between _ _ _ _ ?_ ?_
  · rintro _ mapped
    obtain ⟨other, inside, rfl⟩ := List.mem_map.mp mapped
    exact smaller other inside
  · rintro _ mapped
    obtain ⟨other, inside, rfl⟩ := List.mem_map.mp mapped
    exact larger other inside

/-- The others, when an element has gone. -/
theorem erase_of_walk {before after : List ι} {new : ColorTree ι}
    (split : tree.walk .right = before ++ elm :: after)
    (shrunk : new.walk .right = before ++ after) :
    (table.erase (key elm)).entries = (new.walk .right).map (fun elm => (key elm, elm)) := by
  have sorted := inOrder_of_table walked
  rw [split] at sorted
  obtain ⟨-, -, smaller, larger⟩ := InOrder.split sorted
  change table.entries.filter (·.1 ≠ key elm) = _
  rw [walked, split, shrunk]
  simp only [List.map_append, List.map_cons, List.filter_append]
  congr 1
  · refine List.filter_eq_self.mpr fun entry mapped => ?_
    obtain ⟨other, inside, rfl⟩ := List.mem_map.mp mapped
    simpa using (smaller other inside).ne
  · rw [List.filter_cons_of_neg (by simp)]
    refine List.filter_eq_self.mpr fun entry mapped => ?_
    obtain ⟨other, inside, rfl⟩ := List.mem_map.mp mapped
    simpa using (larger other inside).ne'

end Walks

section Outside

variable {heap : LinkHeap ι} {key key' : ι → κ} {table : RbTree κ ι} {elm : ι}

/-- An element is found by its own key. -/
theorem Represents.key_of_find (represents : Represents heap key table) {k : κ}
    (found : table.find k = some elm) : key elm = k := by
  obtain ⟨tree, -, -, walked⟩ := represents
  rw [find_of_walk walked] at found
  simpa using List.find?_some found

/-- The keys of other elements do not matter. -/
theorem Represents.rekey (represents : Represents heap key table)
    (same : ∀ elm, table.find (key elm) = some elm → key' elm = key elm) :
    Represents heap key' table := by
  obtain ⟨tree, held, sound, walked⟩ := represents
  refine ⟨tree, held, sound, ?_⟩
  rw [walked]
  refine List.map_congr_left fun elm inside => ?_
  rw [same elm ((mem_walk_iff walked).mp inside)]

/-- Nor does what is written at them. -/
theorem Represents.write [DecidableEq ι] (represents : Represents heap key table)
    (outside : table.find (key elm) ≠ some elm) (links : NodeLinks ι) :
    Represents (heap.write elm links) key table := by
  obtain ⟨tree, held, sound, walked⟩ := represents
  exact ⟨tree, held.write (fun inside => outside ((mem_walk_iff walked).mp inside)) links, sound,
    walked⟩

end Outside

end Sbf.SysTree
