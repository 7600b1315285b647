import Sbf.StepSequences
import Sbf.SysTreeTables

set_option autoImplicit false

namespace Sbf.SysTree

open RedBlack

variable {ι κ : Type} [DecidableEq ι] [LinearOrder κ]

/-- What a caller of the macros does: gives an element a key, or calls one of them. -/
inductive Op (ι κ : Type) where
  | assign (elm : ι) (key : κ)
  | insert (elm : ι)
  | remove (elm : ι)
  | find (elm : ι)
  | nfind (elm : ι)
  | next (elm : ι)
  | prev (elm : ι)
  | minmax (val : Int)

structure Memory (ι κ : Type) where
  heap : LinkHeap ι
  key : ι → κ

/-- One call, with what it returns. -/
def perform (cmp : κ → κ → Int) (fuel : Nat) (op : Op ι κ) :
    Step Fault (Memory ι κ) (Option ι) := fun ⟨heap, key⟩ =>
  match op with
  | .assign elm k => .ok (⟨heap, Function.update key elm k⟩, [])
  | .insert elm => do
      let (heap, res) ← insert cmp key fuel heap elm
      .ok (⟨heap, key⟩, [res])
  | .remove elm => do
      let (heap, old) ← remove fuel heap elm
      .ok (⟨heap, key⟩, [some old])
  | .find elm => do .ok (⟨heap, key⟩, [← find cmp key heap fuel elm])
  | .nfind elm => do .ok (⟨heap, key⟩, [← nfind cmp key heap fuel elm])
  | .next elm => do .ok (⟨heap, key⟩, [← next heap fuel elm])
  | .prev elm => do .ok (⟨heap, key⟩, [← prev heap fuel elm])
  | .minmax val => do .ok (⟨heap, key⟩, [← minmax heap fuel val])

/-- A table of elements by their keys. -/
structure Index (ι κ : Type) [LinearOrder κ] where
  table : RbTree κ ι
  key : ι → κ

namespace Index

/-- The element is in the table. -/
def Has (index : Index ι κ) (elm : ι) : Prop := index.table.find (index.key elm) = some elm

instance (index : Index ι κ) (elm : ι) : Decidable (index.Has elm) :=
  inferInstanceAs (Decidable (_ = _))

/-- What the calls mean on the table. Only elements of the table may be removed or asked for
their neighbours, and only elements outside of it may be given a key. -/
def perform (op : Op ι κ) : Step Unit (Index ι κ) (Option ι) := fun index =>
  match op with
  | .assign elm k =>
      if index.Has elm then .error ()
      else .ok (⟨index.table, Function.update index.key elm k⟩, [])
  | .insert elm =>
      match index.table.find (index.key elm) with
      | some equal => .ok (index, [some equal])
      | none => .ok (⟨index.table.set (index.key elm) elm, index.key⟩, [none])
  | .remove elm =>
      if index.Has elm then .ok (⟨index.table.erase (index.key elm), index.key⟩, [some elm])
      else .error ()
  | .find elm => .ok (index, [index.table.find (index.key elm)])
  | .nfind elm => .ok (index, [index.table.atLeast (index.key elm)])
  | .next elm =>
      if index.Has elm then .ok (index, [index.table.above (index.key elm)]) else .error ()
  | .prev elm =>
      if index.Has elm then .ok (index, [index.table.below (index.key elm)]) else .error ()
  | .minmax val =>
      .ok (index, [(if val < 0 then index.table.entries.head?
        else index.table.entries.getLast?).map (·.2)])

end Index

/-- The memory holds a red-black tree of the table's elements, of which there are at most so
many. -/
def Related (count : Nat) (memory : Memory ι κ) (index : Index ι κ) : Prop :=
  Represents memory.heap memory.key index.table ∧ memory.key = index.key ∧
    index.table.entries.length ≤ count

variable {cmp : κ → κ → Int} {fuel : Nat} {memory : Memory ι κ} {index later : Index ι κ}
  {op : Op ι κ} {out : List (Option ι)}

theorem room_of_le {size limit : Nat} (fewer : size ≤ limit)
    (room : 2 * Nat.log 2 (limit + 1) < fuel) : 2 * Nat.log 2 (size + 1) < fuel := by
  have := Nat.log_mono_right (b := 2) (Nat.add_le_add_right fewer 1)
  omega

section Calls

variable {heap : LinkHeap ι} {key : ι → κ} {table : RbTree κ ι} {elm : ι}

omit [DecidableEq ι] in
/-- The way down is logarithmic in the number of elements. -/
theorem height_lt {tree : ColorTree ι} (sound : RedBlackTree tree)
    (walked : table.entries = (tree.walk .right).map (fun elm => (key elm, elm)))
    (enough : 2 * Nat.log 2 (table.entries.length + 1) < fuel) : tree.height < fuel := by
  rw [walked, List.length_map] at enough
  exact sound.height_le.trans_lt enough

omit [DecidableEq ι] in
theorem find_represents (orders : Orders cmp) (represents : Represents heap key table)
    (enough : 2 * Nat.log 2 (table.entries.length + 1) < fuel) :
    find cmp key heap fuel elm = .ok (table.find (key elm)) := by
  obtain ⟨tree, held, sound, walked⟩ := represents
  rw [find, held.1, find_of_walk walked]
  exact @findFrom_held _ _ _ _ _ _ _ _ [] _ _ orders held (inOrder_of_table walked)
    (height_lt sound walked enough).le

omit [DecidableEq ι] in
theorem nfind_represents (orders : Orders cmp) (represents : Represents heap key table)
    (enough : 2 * Nat.log 2 (table.entries.length + 1) < fuel) :
    nfind cmp key heap fuel elm = .ok (table.atLeast (key elm)) := by
  obtain ⟨tree, held, sound, walked⟩ := represents
  rw [nfind, held.1, atLeast_of_walk walked, @nfindFrom_held _ _ _ _ _ _ _ _ [] _ _ orders held
    (inOrder_of_table walked) (height_lt sound walked enough).le none, Option.or_none]

omit [DecidableEq ι] in
theorem minmax_represents (represents : Represents heap key table) (val : Int)
    (enough : 2 * Nat.log 2 (table.entries.length + 1) < fuel) :
    minmax heap fuel val = .ok ((if val < 0 then table.entries.head?
      else table.entries.getLast?).map (·.2)) := by
  obtain ⟨tree, held, sound, walked⟩ := represents
  rw [minmax, held.1, @minmaxFrom_held _ _ _ _ [] _ _ held none (height_lt sound walked enough).le,
    Option.or_none, walked]
  congr 1
  split
  · rw [Side.opp_left, List.head?_map, Option.map_map]
    exact (congrFun Option.map_id _).symm
  · rw [Side.opp_right, ColorTree.walk_left, List.head?_reverse, List.getLast?_map, Option.map_map]
    exact (congrFun Option.map_id _).symm

/-- `RB_NEXT` and `RB_PREV` of an element of the table. -/
theorem neighbours_represent (represents : Represents heap key table)
    (found : table.find (key elm) = some elm)
    (enough : 2 * Nat.log 2 (table.entries.length + 1) < fuel) :
    next heap fuel elm = .ok (table.above (key elm)) ∧
      prev heap fuel elm = .ok (table.below (key elm)) := by
  obtain ⟨tree, held, sound, walked⟩ := represents
  have low := height_lt sound walked enough
  obtain ⟨c, near, far, path, rfl⟩ :=
    Path.exists_plug .left ((mem_walk_iff walked).mpr found)
  have split : (Path.plug (.make .left c near elm far) path).walk .right =
      (Path.behind .right path ++ near.walk .right) ++
        elm :: (far.walk .right ++ Path.ahead .right path) := by
    rw [Path.walk_plug]
    simp [ColorTree.make, ColorTree.walk]
  obtain ⟨above, below⟩ := beside_of_walk walked split
  constructor
  · rw [← ColorTree.make_opp, Side.opp_left] at held low
    rw [above]
    exact step_held held low
  · rw [below, List.reverse_append, ← ColorTree.walk_left, ← Path.ahead_opp]
    exact step_held held low

/-- `RB_INSERT` changes nothing where the key is there, else it adds the element. -/
theorem insert_represents (orders : Orders cmp) (represents : Represents heap key table)
    (enough : 2 * Nat.log 2 (table.entries.length + 1) < fuel) :
    match table.find (key elm) with
    | some equal => insert cmp key fuel heap elm = .ok (heap, some equal)
    | none => ∃ after, insert cmp key fuel heap elm = .ok (after, none) ∧
        Represents after key (table.set (key elm) elm) ∧
        (table.set (key elm) elm).entries.length = table.entries.length + 1 := by
  obtain ⟨tree, held, sound, walked⟩ := represents
  rcases @insert_held _ _ _ _ _ _ _ elm _ _ orders held sound (inOrder_of_table walked)
    (height_lt sound walked enough) with
    ⟨equal, inside, same, ran⟩ |
    ⟨after, whole, before, behind, ran, done, good, split, grown, smaller, larger⟩
  · have found := (mem_walk_iff walked).mp inside
    rw [same] at found
    rw [found]
    exact ran
  · have absent : table.find (key elm) = none := by
      rw [find_of_walk walked, split]
      refine List.find?_eq_none.mpr fun other inside => ?_
      rcases List.mem_append.mp inside with inside | inside
      · simpa using (smaller other inside).ne
      · simpa using (larger other inside).ne'
    have entries := set_of_walk walked split grown smaller larger
    rw [absent]
    refine ⟨after, ran, ⟨whole, done, good, entries⟩, ?_⟩
    rw [entries, walked, split, grown]
    simp
    omega

/-- `RB_REMOVE` of an element of the table. -/
theorem remove_represents (represents : Represents heap key table)
    (found : table.find (key elm) = some elm)
    (enough : 2 * Nat.log 2 (table.entries.length + 1) < fuel) : ∃ after,
    remove fuel heap elm = .ok (after, elm) ∧ Represents after key (table.erase (key elm)) ∧
      (table.erase (key elm)).entries.length + 1 = table.entries.length := by
  obtain ⟨tree, held, sound, walked⟩ := represents
  have low := height_lt sound walked enough
  obtain ⟨c, near, far, path, rfl⟩ :=
    Path.exists_plug .left ((mem_walk_iff walked).mpr found)
  obtain ⟨after, whole, ran, done, good, shrunk⟩ := remove_held held sound low
  have split : (Path.plug (.make .left c near elm far) path).walk .right =
      (Path.behind .right path ++ near.walk .right) ++
        elm :: (far.walk .right ++ Path.ahead .right path) := by
    rw [Path.walk_plug]
    simp [ColorTree.make, ColorTree.walk]
  have rest : whole.walk .right = (Path.behind .right path ++ near.walk .right) ++
      (far.walk .right ++ Path.ahead .right path) := by
    rw [shrunk]
    simp
  have entries := erase_of_walk walked split rest
  refine ⟨after, ran, ⟨whole, done, good, entries⟩, ?_⟩
  rw [entries, walked, split, rest]
  simp
  omega

end Calls

/-- Each call does in memory what it means on the table, in a number of rounds of each of its
loops that is logarithmic in the number of elements. -/
theorem perform_refines (orders : Orders cmp)
    (represents : Represents memory.heap memory.key index.table) (same : memory.key = index.key)
    (enough : 2 * Nat.log 2 (index.table.entries.length + 1) < fuel)
    (ran : Index.perform op index = .ok (later, out)) : ∃ after,
    perform cmp fuel op memory = .ok (after, out) ∧
      Represents after.heap after.key later.table ∧ after.key = later.key ∧
      later.table.entries.length ≤ index.table.entries.length + 1 := by
  obtain ⟨heap, key⟩ := memory
  obtain ⟨table, key'⟩ := index
  cases (same : key = key')
  cases op with
  | assign elm k =>
      simp only [Index.perform] at ran
      split at ran
      · cases ran
      · rename_i absent
        cases ran
        obtain ⟨tree, held, sound, walked⟩ := represents
        refine ⟨_, rfl, ⟨tree, held, sound, ?_⟩, rfl, Nat.le_succ _⟩
        rw [walked]
        refine List.map_congr_left fun other inside => ?_
        have others : other ≠ elm := by
          rintro rfl
          exact absent ((mem_walk_iff walked).mp inside)
        simp only [Function.update_of_ne others]
  | insert elm =>
      have inserted := @insert_represents _ _ _ _ _ _ _ _ _ elm orders represents enough
      simp only [Index.perform] at ran
      split at ran
      · rename_i equal found
        cases ran
        rw [found] at inserted
        refine ⟨⟨heap, key⟩, ?_, represents, rfl, Nat.le_succ _⟩
        simp only [perform, inserted, bind, Except.bind]
      · rename_i absent
        cases ran
        rw [absent] at inserted
        obtain ⟨after, done, represents, size⟩ := inserted
        refine ⟨⟨after, key⟩, ?_, represents, rfl, size.le⟩
        simp only [perform, done, bind, Except.bind]
  | remove elm =>
      simp only [Index.perform] at ran
      split at ran
      · rename_i found
        cases ran
        obtain ⟨after, done, represents, size⟩ := remove_represents represents found enough
        refine ⟨⟨after, key⟩, ?_, represents, rfl, ?_⟩
        · simp only [perform, done, bind, Except.bind]
        · exact (Nat.le_of_succ_le size.le).trans (Nat.le_succ _)
      · cases ran
  | find elm =>
      cases ran
      refine ⟨⟨heap, key⟩, ?_, represents, rfl, Nat.le_succ _⟩
      simp only [perform, find_represents orders represents enough, bind, Except.bind]
  | nfind elm =>
      cases ran
      refine ⟨⟨heap, key⟩, ?_, represents, rfl, Nat.le_succ _⟩
      simp only [perform, nfind_represents orders represents enough, bind, Except.bind]
  | next elm =>
      simp only [Index.perform] at ran
      split at ran
      · rename_i found
        cases ran
        refine ⟨⟨heap, key⟩, ?_, represents, rfl, Nat.le_succ _⟩
        simp only [perform, (neighbours_represent represents found enough).1, bind, Except.bind]
      · cases ran
  | prev elm =>
      simp only [Index.perform] at ran
      split at ran
      · rename_i found
        cases ran
        refine ⟨⟨heap, key⟩, ?_, represents, rfl, Nat.le_succ _⟩
        simp only [perform, (neighbours_represent represents found enough).2, bind, Except.bind]
      · cases ran
  | minmax val =>
      cases ran
      refine ⟨⟨heap, key⟩, ?_, represents, rfl, Nat.le_succ _⟩
      simp only [perform, minmax_represents represents val enough, bind, Except.bind]

/-- `RB_INIT`, whatever the elements hold. -/
def init (entry : ι → NodeLinks ι) (key : ι → κ) : Memory ι κ := ⟨⟨none, entry⟩, key⟩

omit [DecidableEq ι] in
theorem represents_init (entry : ι → NodeLinks ι) (key : ι → κ) :
    Represents (init entry key).heap key RbTree.empty :=
  ⟨.leaf, ⟨rfl, fun _ none => absurd none (Multiset.notMem_zero _), Multiset.nodup_zero⟩,
    ⟨rfl, 0, rfl⟩, rfl⟩

theorem run_related (orders : Orders cmp) (entry : ι → NodeLinks ι) (key : ι → κ)
    (ops : List (Op ι κ)) (enough : 2 * Nat.log 2 (ops.length + 1) < fuel)
    (ran : Step.all (ops.map Index.perform) ⟨RbTree.empty, key⟩ = .ok (index, out)) :
    ∃ after, Step.all (ops.map (perform cmp fuel)) (init entry key) = .ok (after, out) ∧
      Related ops.length after index := by
  have start : Related 0 (init entry key) ⟨RbTree.empty, key⟩ :=
    ⟨represents_init entry key, rfl, Nat.le_refl _⟩
  have each {count : Nat} {op : Op ι κ} {memory : Memory ι κ} {index later : Index ι κ}
      {out : List (Option ι)} (below : count < ops.length) (related : Related count memory index)
      (ran : Index.perform op index = .ok (later, out)) : ∃ after,
      perform cmp fuel op memory = .ok (after, out) ∧ Related (count + 1) after later := by
    obtain ⟨represents, same, size⟩ := related
    obtain ⟨after, done, represents, same, grown⟩ :=
      perform_refines orders represents same (room_of_le (by omega) enough) ran
    exact ⟨after, done, represents, same, by omega⟩
  obtain ⟨after, done, related⟩ := Step.all_refines each (by omega) start ran
  rw [Nat.zero_add] at related
  exact ⟨after, done, related⟩

theorem orders_int : Orders (fun left right : Int => left - right) :=
  ⟨fun _ _ => by omega, fun _ _ => by omega⟩

/-- Seven elements are put in, in the order of their numbers; the one at the root goes again. -/
def sevenOps : List (Op Nat Int) :=
  [.insert 0, .insert 1, .insert 2, .insert 3, .insert 4, .insert 5, .insert 6, .insert 3,
    .remove 3, .next 2, .prev 4, .minmax 1, .nfind 3, .find 3]

/-- Whatever calls are made on an empty tree, as long as only elements of the tree are removed
or asked for their neighbours and only elements outside of it change their keys, each returns
what the table of the elements by their keys tells, no null pointer is followed and each loop
ends after at most twice the logarithm of the number of calls. -/
theorem tree_run_refines (orders : Orders cmp) (entry : ι → NodeLinks ι) (key : ι → κ)
    (ops : List (Op ι κ)) (enough : 2 * Nat.log 2 (ops.length + 1) < fuel)
    (ran : Step.all (ops.map Index.perform) ⟨RbTree.empty, key⟩ = .ok (index, out)) :
    ∃ after, Step.all (ops.map (perform cmp fuel)) (init entry key) = .ok (after, out) ∧
      Represents after.heap after.key index.table ∧ after.key = index.key := by
  obtain ⟨after, done, represents, same, -⟩ := run_related orders entry key ops enough ran
  exact ⟨after, done, represents, same⟩

theorem tree_run_refines_seven : ∃ after,
    Step.all (sevenOps.map (perform (fun left right : Int => left - right) 8))
      (init (fun _ => ⟨none, none, none, .black⟩) (fun elm : Nat => (elm : Int))) =
        .ok (after, [none, none, none, none, none, none, none, some 3, some 3, some 4, some 2,
          some 6, some 4, none]) := by
  obtain ⟨index, ran⟩ : ∃ index : Index Nat Int, Step.all (sevenOps.map Index.perform)
      ⟨RbTree.empty, fun elm : Nat => (elm : Int)⟩ =
        .ok (index, [none, none, none, none, none, none, none, some 3, some 3, some 4, some 2,
          some 6, some 4, none]) := ⟨_, rfl⟩
  obtain ⟨after, done, -⟩ := tree_run_refines orders_int (fun _ => ⟨none, none, none, .black⟩)
    (fun elm : Nat => (elm : Int)) sevenOps
    (by decide : 2 * Nat.log 2 (sevenOps.length + 1) < 8) ran
  exact ⟨after, done⟩

/-- In every state that such calls lead to, the links are those of a red-black tree of height at
most twice the logarithm of the number of its elements, and that many rounds, and one more, are
enough for each loop of any further call. -/
theorem tree_run_balanced (orders : Orders cmp) (entry : ι → NodeLinks ι) (key : ι → κ)
    (ops : List (Op ι κ)) (enough : 2 * Nat.log 2 (ops.length + 1) < fuel)
    (ran : Step.all (ops.map Index.perform) ⟨RbTree.empty, key⟩ = .ok (index, out)) :
    ∃ after tree, Step.all (ops.map (perform cmp fuel)) (init entry key) = .ok (after, out) ∧
      after.heap.Held tree 0 ∧ RedBlackTree tree ∧
      tree.height ≤ 2 * Nat.log 2 (index.table.entries.length + 1) ∧
      ∀ (op : Op ι κ) later answer, Index.perform op index = .ok (later, answer) →
        ∃ last, perform cmp (2 * Nat.log 2 (index.table.entries.length + 1) + 1) op after =
          .ok (last, answer) := by
  obtain ⟨after, done, represents, same, -⟩ := run_related orders entry key ops enough ran
  obtain ⟨tree, held, sound, walked⟩ := id represents
  refine ⟨after, tree, done, held, sound, Nat.le_of_lt_succ
    (height_lt sound walked (Nat.lt_succ_self _)), fun op later answer told => ?_⟩
  obtain ⟨last, called, -⟩ := perform_refines orders represents same (Nat.lt_succ_self _) told
  exact ⟨last, called⟩

theorem tree_run_balanced_seven : ∃ after tree,
    Step.all (sevenOps.map (perform (fun left right : Int => left - right) 8))
      (init (fun _ => ⟨none, none, none, .black⟩) (fun elm : Nat => (elm : Int))) =
        .ok (after, [none, none, none, none, none, none, none, some 3, some 3, some 4, some 2,
          some 6, some 4, none]) ∧
      after.heap.Held tree 0 ∧ RedBlackTree tree ∧ tree.height ≤ 4 := by
  obtain ⟨index, ran, size⟩ : ∃ index : Index Nat Int, Step.all (sevenOps.map Index.perform)
      ⟨RbTree.empty, fun elm : Nat => (elm : Int)⟩ =
        .ok (index, [none, none, none, none, none, none, none, some 3, some 3, some 4, some 2,
          some 6, some 4, none]) ∧ index.table.entries.length = 6 := ⟨_, rfl, rfl⟩
  obtain ⟨after, tree, done, held, sound, low, -⟩ := tree_run_balanced orders_int
    (fun _ => ⟨none, none, none, .black⟩) (fun elm : Nat => (elm : Int)) sevenOps
    (by decide : 2 * Nat.log 2 (sevenOps.length + 1) < 8) ran
  rw [size] at low
  exact ⟨after, tree, done, held, sound, low.trans (by decide)⟩

end Sbf.SysTree
