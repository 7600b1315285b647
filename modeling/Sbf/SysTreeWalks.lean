import Sbf.SysTreeRuns

set_option autoImplicit false

namespace Sbf.SysTree

open RedBlack

variable {ι κ : Type} [DecidableEq ι]

/-- The loop of `RB_FOREACH`, or of `RB_FOREACH_REVERSE`: the elements that its body is run
for. -/
def foreachFrom (side : Side) (heap : LinkHeap ι) (fuel : Nat) :
    Nat → Option ι → Except Fault (List ι)
  | _, none => .ok []
  | 0, some _ => .error .endless
  | rounds + 1, some elm => do
      let after ← step side heap fuel elm
      .ok (elm :: (← foreachFrom side heap fuel rounds after))

/-- `RB_FOREACH` -/
def foreach (heap : LinkHeap ι) (fuel rounds : Nat) : Except Fault (List ι) := do
  foreachFrom .right heap fuel rounds (← minmax heap fuel (-1))

/-- `RB_FOREACH_REVERSE` -/
def foreachReverse (heap : LinkHeap ι) (fuel rounds : Nat) : Except Fault (List ι) := do
  foreachFrom .left heap fuel rounds (← minmax heap fuel 1)

/-- The loop of `RB_FOREACH_SAFE` with a body that takes some elements out of the tree and frees
them, after which they hold anything. -/
def foreachSafeFrom (freed : ι → Option (NodeLinks ι)) (fuel : Nat) :
    Nat → LinkHeap ι → Option ι → Except Fault (LinkHeap ι × List ι)
  | _, heap, none => .ok (heap, [])
  | 0, _, some _ => .error .endless
  | rounds + 1, heap, some elm => do
      let after ← next heap fuel elm
      let heap ← match freed elm with
        | none => .ok heap
        | some links => do .ok ((← remove fuel heap elm).1.write elm links)
      let (heap, rest) ← foreachSafeFrom freed fuel rounds heap after
      .ok (heap, elm :: rest)

/-- `RB_FOREACH_SAFE` -/
def foreachSafe (freed : ι → Option (NodeLinks ι)) (heap : LinkHeap ι) (fuel rounds : Nat) :
    Except Fault (LinkHeap ι × List ι) := do
  foreachSafeFrom freed fuel rounds heap (← minmax heap fuel (-1))

variable {heap : LinkHeap ι} {side : Side} {whole : ColorTree ι} {elm : ι} {before after : List ι}
  {fuel rounds : Nat}

omit [DecidableEq ι] in
/-- Around an element of the walk is what the walk meets before and after it. -/
theorem exists_focus (held : heap.Held whole 0) (side : Side)
    (split : whole.walk side = before ++ elm :: after) : ∃ c near far path,
    whole = Path.plug (.make side c near elm far) path ∧
      before = Path.behind side path ++ far.walk side ∧
      after = near.walk side ++ Path.ahead side path := by
  have inside : elm ∈ whole.walk .right := by
    have here : elm ∈ whole.walk side := by
      rw [split]
      exact List.mem_append_right _ List.mem_cons_self
    cases side with
    | left => rwa [ColorTree.walk_left, List.mem_reverse] at here
    | right => exact here
  obtain ⟨c, near, far, path, rfl⟩ := Path.exists_plug side inside
  have nodup := (held.nodup side).1
  rw [split, List.nodup_middle, List.nodup_cons, List.mem_append, not_or] at nodup
  have same : before ++ elm :: after = (Path.behind side path ++ far.walk side) ++
      elm :: (near.walk side ++ Path.ahead side path) := by
    rw [← split, Path.walk_plug, ColorTree.walk_make]
    simp
  obtain ⟨same, -, same'⟩ := (List.append_cons_inj_of_notMem nodup.1.1 nodup.1.2).mp same
  exact ⟨c, near, far, path, rfl, same, same'⟩

theorem foreachFrom_held (held : heap.Held whole 0) (low : whole.height < fuel)
    (split : whole.walk side = before ++ after) (enough : after.length ≤ rounds) :
    foreachFrom side heap fuel rounds after.head? = .ok after := by
  induction after generalizing before rounds with
  | nil => exact foreachFrom.eq_1 ..
  | cons elm after ih =>
      cases rounds with
      | zero => cases enough
      | succ rounds =>
          obtain ⟨c, near, far, path, rfl, -, rest⟩ := exists_focus held side split
          have onward := @ih (before ++ [elm]) rounds (by rw [split]; simp)
            (Nat.le_of_succ_le_succ enough)
          rw [List.head?_cons, foreachFrom, step_held held low, ← rest]
          simp only [bind, Except.bind, onward]

/-- A walk with removals: what was kept so far is before what is left to be visited. -/
theorem foreachSafeFrom_held (freed : ι → Option (NodeLinks ι)) (held : heap.Held whole 0)
    (sound : RedBlackTree whole)
    (room : 2 * Nat.log 2 ((whole.walk .right).length + 1) < fuel)
    (split : whole.walk .right = before ++ after) (enough : after.length ≤ rounds) :
    ∃ last whole', foreachSafeFrom freed fuel rounds heap after.head? = .ok (last, after) ∧
      last.Held whole' 0 ∧ RedBlackTree whole' ∧
      whole'.walk .right = before ++ after.filter (fun elm => (freed elm).isNone) := by
  induction after generalizing heap whole before rounds with
  | nil =>
      refine ⟨heap, whole, foreachSafeFrom.eq_1 .., held, sound, ?_⟩
      rw [split, List.filter_nil]
  | cons elm after ih =>
      cases rounds with
      | zero => cases enough
      | succ rounds =>
          have low : whole.height < fuel := sound.height_le.trans_lt room
          obtain ⟨c, near, far, path, focus, same, rest⟩ := exists_focus held .right split
          have stepped : next heap fuel elm = .ok after.head? := by
            rw [rest]
            subst focus
            exact step_held held low
          cases choice : freed elm with
          | none =>
              obtain ⟨last, whole', ran, done, good, walked⟩ :=
                @ih heap whole (before ++ [elm]) rounds held sound room (by rw [split]; simp) (Nat.le_of_succ_le_succ enough)
              refine ⟨last, whole', ?_, done, good, ?_⟩
              · rw [List.head?_cons, foreachSafeFrom, stepped, choice]
                simp only [bind, Except.bind, ran]
              · rw [walked, List.filter_cons_of_pos (by rw [choice]; rfl)]
                simp
          | some links =>
              have nodup := (held.nodup .right).1
              rw [split, List.nodup_middle, List.nodup_cons] at nodup
              have focus' : whole = Path.plug (.make .left c far elm near) path := focus
              rw [focus'] at held sound low
              obtain ⟨one, shrunk, removed, held, sound, walked⟩ := remove_held held sound low
              have left : shrunk.walk .right = before ++ after := by
                rw [walked, same, rest]
                simp
              have written := held.write (left ▸ nodup.1) links
              have fewer : (shrunk.walk .right).length ≤ (whole.walk .right).length := by
                rw [left, split]
                simp
              obtain ⟨last, whole', ran, done, good, walked⟩ := ih written sound
                (room_of_le fewer room) left
                (Nat.le_of_succ_le_succ enough)
              refine ⟨last, whole', ?_, done, good, ?_⟩
              · rw [List.head?_cons, foreachSafeFrom, stepped, choice]
                simp only [bind, Except.bind, removed, ran]
              · rw [walked, List.filter_cons_of_neg (by rw [choice]; simp)]

section Tables

variable [LinearOrder κ] {cmp : κ → κ → Int} {key : ι → κ} {table : RbTree κ ι}
  {index : Index ι κ} {out : List (Option ι)}

theorem foreach_represents (represents : Represents heap key table)
    (room : 2 * Nat.log 2 (table.entries.length + 1) < fuel)
    (enough : table.entries.length ≤ rounds) :
    foreach heap fuel rounds = .ok (table.entries.map (·.2)) ∧
      foreachReverse heap fuel rounds = .ok (table.entries.map (·.2)).reverse := by
  have first := minmax_represents represents (-1) room
  have last := minmax_represents represents 1 room
  obtain ⟨tree, held, sound, walked⟩ := represents
  have low := height_lt sound walked room
  have elms : table.entries.map (·.2) = tree.walk .right := by
    rw [walked, List.map_map]
    exact List.map_id _
  have size : table.entries.length = (tree.walk .right).length := by
    rw [walked, List.length_map]
  rw [if_pos (by decide), ← List.head?_map, elms] at first
  rw [if_neg (by decide), ← List.getLast?_map, elms, ← List.head?_reverse] at last
  constructor
  · rw [foreach, first, elms]
    exact @foreachFrom_held _ _ _ _ _ [] _ _ _ held low rfl (size ▸ enough)
  · rw [foreachReverse, last, elms]
    exact @foreachFrom_held _ _ _ _ _ [] _ _ _ held low ColorTree.walk_left
      (by rwa [List.length_reverse, ← size])

theorem foreachSafe_represents (freed : ι → Option (NodeLinks ι))
    (represents : Represents heap key table)
    (room : 2 * Nat.log 2 (table.entries.length + 1) < fuel)
    (enough : table.entries.length ≤ rounds) : ∃ last,
    foreachSafe freed heap fuel rounds = .ok (last, table.entries.map (·.2)) ∧
      ∃ kept, Represents last key kept ∧
        kept.entries = table.entries.filter (fun entry => (freed entry.2).isNone) := by
  have first := minmax_represents represents (-1) room
  obtain ⟨tree, held, sound, walked⟩ := represents
  have elms : table.entries.map (·.2) = tree.walk .right := by
    rw [walked, List.map_map]
    exact List.map_id _
  have size : table.entries.length = (tree.walk .right).length := by
    rw [walked, List.length_map]
  rw [if_pos (by decide), ← List.head?_map, elms] at first
  rw [size] at room enough
  obtain ⟨last, whole, ran, done, good, left⟩ :=
    @foreachSafeFrom_held _ _ _ _ [] _ _ _ freed held sound room rfl enough
  refine ⟨last, ?_, ⟨table.entries.filter _, table.sorted.filter _⟩, ⟨whole, done, good, ?_⟩, rfl⟩
  · rw [foreachSafe, first, elms]
    exact ran
  · change table.entries.filter _ = _
    rw [left, walked, List.nil_append, List.filter_map]
    rfl

/-- `RB_PREV` takes back what `RB_NEXT` did. -/
theorem prev_next_represents (represents : Represents heap key table) {other : ι}
    (found : table.find (key elm) = some elm)
    (room : 2 * Nat.log 2 (table.entries.length + 1) < fuel)
    (stepped : next heap fuel elm = .ok (some other)) :
    prev heap fuel other = .ok (some elm) := by
  have called := (neighbours_represent represents found room).1
  obtain ⟨tree, held, sound, walked⟩ := id represents
  obtain ⟨before, after, split⟩ := List.append_of_mem ((mem_walk_iff walked).mpr found)
  have above := (beside_of_walk walked split).1
  have first : after.head? = some other := by
    rw [← above]
    exact Except.ok.inj (called.symm.trans stepped)
  obtain ⟨rest, rfl⟩ := List.head?_eq_some_iff.mp first
  have split' : tree.walk .right = (before ++ [elm]) ++ other :: rest := by
    rw [split]
    simp
  have there : table.find (key other) = some other := (mem_walk_iff walked).mp (by
    rw [split']
    exact List.mem_append_right _ List.mem_cons_self)
  rw [(neighbours_represent represents there room).2, (beside_of_walk walked split').2]
  simp

/-- In every state that calls of the macros lead to, `RB_FOREACH` visits each element of the tree
once, in the order of the keys, `RB_FOREACH_REVERSE` in the other order, and `RB_PREV` leads back
from where `RB_NEXT` leads to. -/
theorem tree_run_foreach (orders : Orders cmp) (entry : ι → NodeLinks ι) (key : ι → κ)
    (ops : List (Op ι κ)) (room : 2 * Nat.log 2 (ops.length + 1) < fuel)
    (enough : ops.length ≤ rounds)
    (ran : Step.all (ops.map Index.perform) ⟨RbTree.empty, key⟩ = .ok (index, out)) :
    ∃ after, Step.all (ops.map (perform cmp fuel)) (init entry key) = .ok (after, out) ∧
      foreach after.heap fuel rounds = .ok (index.table.entries.map (·.2)) ∧
      foreachReverse after.heap fuel rounds = .ok (index.table.entries.map (·.2)).reverse ∧
      ∀ elm other, index.Has elm → next after.heap fuel elm = .ok (some other) →
        prev after.heap fuel other = .ok (some elm) := by
  obtain ⟨after, done, represents, same, size⟩ := run_related orders entry key ops room ran
  have room' := room_of_le size room
  obtain ⟨forth, back⟩ := foreach_represents represents room' (size.trans enough)
  refine ⟨after, done, forth, back, fun elm other found stepped => ?_⟩
  exact prev_next_represents represents (same ▸ found) room' stepped

theorem tree_run_foreach_seven : ∃ after,
    Step.all (sevenOps.map (perform (fun left right : Int => left - right) 8))
      (init (fun _ => ⟨none, none, none, .black⟩) (fun elm : Nat => (elm : Int))) =
        .ok (after, [none, none, none, none, none, none, none, some 3, some 3, some 4, some 2,
          some 6, some 4, none]) ∧
      foreach after.heap 8 14 = .ok [0, 1, 2, 4, 5, 6] := by
  obtain ⟨index, ran, elms⟩ : ∃ index : Index Nat Int, Step.all (sevenOps.map Index.perform)
      ⟨RbTree.empty, fun elm : Nat => (elm : Int)⟩ =
        .ok (index, [none, none, none, none, none, none, none, some 3, some 3, some 4, some 2,
          some 6, some 4, none]) ∧ index.table.entries.map (·.2) = [0, 1, 2, 4, 5, 6] :=
    ⟨_, rfl, rfl⟩
  obtain ⟨after, done, forth, -⟩ := tree_run_foreach orders_int
    (fun _ => ⟨none, none, none, .black⟩) (fun elm : Nat => (elm : Int)) sevenOps
    (by decide : 2 * Nat.log 2 (sevenOps.length + 1) < 8) (by decide : sevenOps.length ≤ 14) ran
  rw [elms] at forth
  exact ⟨after, done, forth⟩

/-- `RB_FOREACH_SAFE` visits each element once, in the order of the keys, also when its body takes
elements out of the tree and frees them, whatever their memory holds then; the tree that is left
is one of the elements that were kept. -/
theorem tree_run_foreachSafe (orders : Orders cmp) (entry : ι → NodeLinks ι) (key : ι → κ)
    (ops : List (Op ι κ)) (room : 2 * Nat.log 2 (ops.length + 1) < fuel)
    (enough : ops.length ≤ rounds)
    (ran : Step.all (ops.map Index.perform) ⟨RbTree.empty, key⟩ = .ok (index, out)) :
    ∃ after, Step.all (ops.map (perform cmp fuel)) (init entry key) = .ok (after, out) ∧
      ∀ freed : ι → Option (NodeLinks ι), ∃ last kept,
        foreachSafe freed after.heap fuel rounds = .ok (last, index.table.entries.map (·.2)) ∧
        Represents last after.key kept ∧
        kept.entries = index.table.entries.filter (fun entry => (freed entry.2).isNone) := by
  obtain ⟨after, done, represents, same, size⟩ := run_related orders entry key ops room ran
  have room' := room_of_le size room
  refine ⟨after, done, fun freed => ?_⟩
  obtain ⟨last, walked, kept, left, entries⟩ :=
    foreachSafe_represents freed represents room' (size.trans enough)
  exact ⟨last, kept, walked, left, entries⟩

theorem tree_run_foreachSafe_seven : ∃ after last,
    Step.all (sevenOps.map (perform (fun left right : Int => left - right) 8))
      (init (fun _ => ⟨none, none, none, .black⟩) (fun elm : Nat => (elm : Int))) =
        .ok (after, [none, none, none, none, none, none, none, some 3, some 3, some 4, some 2,
          some 6, some 4, none]) ∧
      foreachSafe (fun elm => some ⟨some elm, some elm, some elm, .red⟩) after.heap 8 14 =
        .ok (last, [0, 1, 2, 4, 5, 6]) ∧ last.root = none := by
  obtain ⟨index, ran, elms⟩ : ∃ index : Index Nat Int, Step.all (sevenOps.map Index.perform)
      ⟨RbTree.empty, fun elm : Nat => (elm : Int)⟩ =
        .ok (index, [none, none, none, none, none, none, none, some 3, some 3, some 4, some 2,
          some 6, some 4, none]) ∧ index.table.entries.map (·.2) = [0, 1, 2, 4, 5, 6] :=
    ⟨_, rfl, rfl⟩
  obtain ⟨after, done, each⟩ := tree_run_foreachSafe orders_int
    (fun _ => ⟨none, none, none, .black⟩) (fun elm : Nat => (elm : Int)) sevenOps
    (by decide : 2 * Nat.log 2 (sevenOps.length + 1) < 8) (by decide : sevenOps.length ≤ 14) ran
  obtain ⟨last, kept, walked, ⟨tree, held, sound, shape⟩, entries⟩ :=
    each (fun elm => some ⟨some elm, some elm, some elm, .red⟩)
  rw [elms] at walked
  refine ⟨after, last, done, walked, ?_⟩
  rw [held.1]
  cases tree with
  | leaf => rfl
  | node c left value right =>
      rw [shape] at entries
      have empty := congrArg List.length entries
      simp [ColorTree.walk] at empty

end Tables

end Sbf.SysTree
